/-
# Allocation of fake addresses

The search of `allocate` goes round the block of the pool, from where the last one ended, and stops
at a free address or when it is back where it began.  It visits every address of the block before it
gives up, so it fails only if all of them are in use.
-/
import AnonBird.FakeIP

open NetIP Nat

namespace FakeIP

namespace Pool

variable (p : Pool)

/-- The address is in the block of the pool. -/
structure InBlock (ip : Addr) : Prop where
  bitLen : ip.bitLen = p.baseIP.bitLen
  zone : ip.zone = p.baseIP.zone
  ge : p.baseIP.value ≤ ip.value
  le : ip.value ≤ p.maxIP.value

/-- The block is a range of addresses, and the pool stays in it. -/
structure Ranged : Prop where
  max : p.InBlock p.maxIP
  next : p.InBlock p.nextIP
  fakes : ∀ fake real, get p.fakeToReal fake = some real → p.InBlock fake

/-- The place of an address in the block. -/
def place (ip : Addr) : ℕ := ip.value - p.baseIP.value

/-- The loop of `allocate` from an address, without a bound on its turns. -/
inductive Search : Addr → Option Addr × Addr → Prop
  | free {ip} : get p.fakeToReal ip = none → Search ip (some ip, p.advance ip)
  | full {ip} :
      get p.fakeToReal ip ≠ none → p.advance ip = p.nextIP →
      Search ip (none, p.advance ip)
  | again {ip r} :
      get p.fakeToReal ip ≠ none →
      p.advance ip ≠ p.nextIP → Search (p.advance ip) r → Search ip r

variable {p}

/-- Addresses of the block are told apart by their places. -/
theorem InBlock.eq {ip ip' : Addr} (h : p.InBlock ip) (h' : p.InBlock ip')
    (hplace : p.place ip = p.place ip') : ip = ip' := by
  have := h.ge
  have := h'.ge
  unfold place at hplace
  exact Addr.ext_parts (h.bitLen.trans h'.bitLen.symm) (by omega) (h.zone.trans h'.zone.symm)

variable {ip : Addr}

/-- Places are below the size. -/
theorem InBlock.place_lt (h : p.InBlock ip) : p.place ip < p.size := by
  have := h.ge
  have := h.le
  unfold place size
  omega

/-- The next address of the block, after the last one the first. -/
theorem Ranged.advance (h : p.Ranged) (hip : p.InBlock ip) :
    p.InBlock (p.advance ip) ∧ p.place (p.advance ip) = (p.place ip + 1) % p.size := by
  have hge := hip.ge
  have hle := hip.le
  have hlt : ip.cmp p.maxIP = .lt ↔ ip.value < p.maxIP.value := by
    rw [Addr.cmp, hip.bitLen, h.max.bitLen, hip.zone, h.max.zone]
    simp [Nat.compare_eq_lt]
  unfold Pool.advance place size
  by_cases hlast : ip.value < p.maxIP.value
  · rw [if_neg (by simpa using hlt.mpr hlast)]
    have hvalue : (FakeIP.next ip).value = ip.value + 1 := value_next (hip.bitLen.trans
      h.max.bitLen.symm) hlast
    refine ⟨⟨(bitLen_next ip).trans hip.bitLen, (zone_next ip).trans hip.zone, ?_, ?_⟩, ?_⟩
    · omega
    · omega
    · rw [hvalue, mod_eq_of_lt (by omega)]
      omega
  · rw [if_pos fun h => hlast (hlt.mp h)]
    refine ⟨⟨rfl, rfl, le_rfl, hge.trans hle⟩, ?_⟩
    have hround : ip.value - p.baseIP.value + 1 = p.maxIP.value + 1 - p.baseIP.value := by omega
    rw [hround, Nat.mod_self, Nat.sub_self]

/-- As many turns as the way back to the start has are enough, and if none of them finds a free
address, all the addresses on the way are in use. -/
theorem Ranged.search (h : p.Ranged) {turns : ℕ} (hip : p.InBlock ip)
    (hpos : 0 < turns) (hle : turns ≤ p.size)
    (hway : (p.place ip + turns) % p.size = p.place p.nextIP) :
    p.Search ip (p.findFree turns ip) ∧ p.InBlock (p.findFree turns ip).2 ∧
      (∀ fake, (p.findFree turns ip).1 = some fake → p.InBlock fake) ∧
      ((p.findFree turns ip).1 = none → ∀ ip', p.InBlock ip' →
        (∃ j < turns, p.place ip' = (p.place ip + j) % p.size) → get p.fakeToReal ip' ≠ none) := by
  induction turns generalizing ip with
  | zero => exact absurd hpos (lt_irrefl 0)
  | succ turns ih =>
    obtain ⟨hnext, hplace⟩ := h.advance hip
    have hsize := hip.place_lt
    rw [findFree]
    by_cases hfree : (get p.fakeToReal ip).isNone
    · rw [if_pos hfree]
      exact ⟨.free (Option.isNone_iff_eq_none.mp hfree), hnext,
        fun _ hf => by cases hf; exact hip, by simp⟩
    · rw [if_neg hfree]
      have huse : get p.fakeToReal ip ≠ none := by simpa using hfree
      have hstep : (p.place (p.advance ip) + turns) % p.size = p.place p.nextIP := by
        rw [hplace, mod_add_mod, ← hway]
        congr 1
        omega
      have hself : ∀ ip', p.InBlock ip' → p.place ip' = (p.place ip + 0) % p.size →
          get p.fakeToReal ip' ≠ none := by
        intro ip' hip' hsame
        rw [add_zero, mod_eq_of_lt hsize] at hsame
        rwa [hip'.eq hip hsame]
      by_cases hback : p.advance ip = p.nextIP
      · rw [if_pos hback]
        refine ⟨.full huse hback, hnext, by simp, fun _ ip' hip' hj => ?_⟩
        -- back at the start, the way is over
        have hover : turns = 0 := by
          rw [hback] at hstep
          have hlt := h.next.place_lt
          rcases lt_or_ge (p.place p.nextIP + turns) p.size with hsum | hsum
          · rw [mod_eq_of_lt hsum] at hstep
            omega
          · rw [mod_eq_sub_mod hsum, mod_eq_of_lt (by omega)] at hstep
            omega
        obtain ⟨j, hj, hsame⟩ := hj
        obtain rfl : j = 0 := by omega
        exact hself ip' hip' hsame
      · rw [if_neg hback]
        have hturns : 0 < turns := by
          rw [pos_iff_ne_zero]
          rintro rfl
          rw [add_zero, mod_eq_of_lt hnext.place_lt] at hstep
          exact hback (hnext.eq h.next hstep)
        obtain ⟨hsearch, hin, hfound, hnone⟩ := ih hnext hturns (by omega) hstep
        refine ⟨.again huse hback hsearch, hin, hfound, fun hfail ip' hip' hj => ?_⟩
        obtain ⟨j, hj, hsame⟩ := hj
        rcases j with _ | j
        · exact hself ip' hip' hsame
        · refine hnone hfail ip' hip' ⟨j, by omega, ?_⟩
          rw [hsame, hplace, mod_add_mod]
          congr 1
          omega

/-- The search goes once around the block. -/
theorem Ranged.search_start (h : p.Ranged) : p.Search p.nextIP (p.findFree p.size p.nextIP) ∧
      p.InBlock (p.findFree p.size p.nextIP).2 ∧
      (∀ fake, (p.findFree p.size p.nextIP).1 = some fake → p.InBlock fake) ∧
      ((p.findFree p.size p.nextIP).1 = none → ∀ ip, p.InBlock ip →
        get p.fakeToReal ip ≠ none) := by
  have hnext := h.next.place_lt
  obtain ⟨hsearch, hin, hfound, hnone⟩ := h.search h.next (zero_lt_of_lt hnext) le_rfl
    (by rw [add_mod_right, mod_eq_of_lt hnext])
  refine ⟨hsearch, hin, hfound, fun hfail ip hip => hnone hfail ip hip ?_⟩
  have hlt := hip.place_lt
  rcases lt_or_ge (p.place ip) (p.place p.nextIP) with hbefore | hafter
  · refine ⟨p.size + p.place ip - p.place p.nextIP, by omega, ?_⟩
    rw [Nat.add_sub_cancel' (by omega), Nat.add_mod_left, Nat.mod_eq_of_lt hlt]
  · refine ⟨p.place ip - p.place p.nextIP, by omega, ?_⟩
    rw [Nat.add_sub_cancel' hafter, Nat.mod_eq_of_lt hlt]

theorem allocate_maxIP (real : Addr) : (p.allocate real).2.maxIP = p.maxIP := by
  unfold allocate
  split
  · rfl
  · split <;> rfl

/-- The block stays. -/
theorem inBlock_allocate (real ip : Addr) : (p.allocate real).2.InBlock ip ↔ p.InBlock ip := by
  constructor
  · rintro ⟨h₁, h₂, h₃, h₄⟩
    rw [allocate_baseIP] at h₁ h₂ h₃
    rw [allocate_maxIP] at h₄
    exact ⟨h₁, h₂, h₃, h₄⟩
  · rintro ⟨h₁, h₂, h₃, h₄⟩
    rw [← allocate_baseIP real] at h₁ h₂ h₃
    rw [← allocate_maxIP real] at h₄
    exact ⟨h₁, h₂, h₃, h₄⟩

/-- A new address is allocated. -/
theorem allocate_of_none {real : Addr} (h : get p.allocated real = none) :
    (p.allocate real).1 = (p.findFree p.size p.nextIP).1 ∧
      (p.allocate real).2.nextIP = (p.findFree p.size p.nextIP).2 ∧
      ∀ fake r, get (p.allocate real).2.fakeToReal fake = some r →
        get p.fakeToReal fake = some r ∨ (p.findFree p.size p.nextIP).1 = some fake := by
  unfold allocate
  split
  next hsome =>
    rw [h] at hsome
    cases hsome
  · split
    next hfound =>
      exact ⟨(congrArg Prod.fst hfound).symm, (congrArg Prod.snd hfound).symm,
        fun fake r hr => .inl hr⟩
    next hfound =>
      refine ⟨(congrArg Prod.fst hfound).symm, (congrArg Prod.snd hfound).symm, fun fake r hr => ?_⟩
      obtain ⟨rfl, -⟩ | ⟨-, hr⟩ := GoMap.get_set_eq_some.mp hr
      · exact .inr (congrArg Prod.fst hfound)
      · exact .inl hr

/-- The pool stays in its block. -/
theorem Ranged.allocate (h : p.Ranged) (real : Addr) : (p.allocate real).2.Ranged := by
  cases hreal : get p.allocated real with
  | some fake =>
    have hsame : (p.allocate real).2 = p := by
      unfold Pool.allocate
      split
      · rfl
      next hnone =>
        rw [hreal] at hnone
        cases hnone
    rwa [hsame]
  | none =>
    obtain ⟨-, hin, hfound, -⟩ := h.search_start
    obtain ⟨-, hnext, hfakes⟩ := allocate_of_none hreal
    refine ⟨?_, ?_, fun fake r hr => ?_⟩
    · rw [inBlock_allocate, allocate_maxIP]
      exact h.max
    · rw [inBlock_allocate, hnext]
      exact hin
    · rw [inBlock_allocate]
      rcases hfakes fake r hr with hold | hnew
      · exact h.fakes fake r hold
      · exact hfound fake hnew

/-- An allocation fails exactly if the address has no fake one and all of the block are in use. -/
theorem Ranged.allocate_eq_none_iff (h : p.Ranged) (real : Addr) :
    (p.allocate real).1 = none ↔ get p.allocated real = none ∧
      ∀ ip, p.InBlock ip → get p.fakeToReal ip ≠ none := by
  cases hreal : get p.allocated real with
  | some fake => simp [allocate_of_get hreal]
  | none =>
    obtain ⟨-, -, hfound, hnone⟩ := h.search_start
    rw [(allocate_of_none hreal).1]
    refine ⟨fun hfail => ⟨rfl, hnone hfail⟩, fun huse => ?_⟩
    by_contra hsome
    obtain ⟨fake, hfake⟩ := Option.ne_none_iff_exists'.mp hsome
    exact huse.2 fake (hfound fake hfake) ((p.findFree_spec p.size p.family).1 fake hfake).1

end Pool

/-! ## Sequences of allocations -/

open Pool

namespace Manager

/-- The real address behind a fake one. -/
def getRealIP (m : Manager) (fakeIP : Addr) : Option Addr :=
  get (m.pool fakeIP.unmap).fakeToReal fakeIP.unmap

/-- The manager after allocations. -/
def run (m : Manager) (reals : List Addr) : Manager :=
  reals.foldl (fun m real => (m.allocateFakeIP real).2) m

/-- The blocks are those of a new manager, and the pools stay in them. -/
structure Blocks (m : Manager) : Prop where
  v4 : m.v4.Ranged
  v6 : m.v6.Ranged
  base4 : m.v4.baseIP = newManager.v4.baseIP
  max4 : m.v4.maxIP = newManager.v4.maxIP
  base6 : m.v6.baseIP = newManager.v6.baseIP
  max6 : m.v6.maxIP = newManager.v6.maxIP

variable {m : Manager}

theorem Blocks.pool (h : m.Blocks) (ip : Addr) : (m.pool ip).Ranged := by
  cases ip with
  | v4 b => exact h.v4
  | v6 b zone => exact h.v6

/-- The pools stay in their blocks. -/
theorem Blocks.allocateFakeIP (h : m.Blocks) (real : Addr) : (m.allocateFakeIP real).2.Blocks := by
  unfold Manager.allocateFakeIP
  split
  · exact ⟨h.v4, h.v6.allocate _, h.base4, h.max4, (allocate_baseIP _).trans h.base6,
      (allocate_maxIP _).trans h.max6⟩
  · exact ⟨h.v4.allocate _, h.v6, (allocate_baseIP _).trans h.base4,
      (allocate_maxIP _).trans h.max4, h.base6, h.max6⟩

theorem Blocks.run (h : m.Blocks) (reals : List Addr) : (m.run reals).Blocks := by
  induction reals generalizing m with
  | nil => exact h
  | cons real reals ih => exact ih (h.allocateFakeIP real)

theorem blocks_newManager : newManager.Blocks := by
  have h4 : newManager.v4.InBlock newManager.v4.maxIP ∧
      newManager.v4.InBlock newManager.v4.nextIP :=
    ⟨⟨rfl, rfl, by decide, le_rfl⟩, ⟨rfl, rfl, le_rfl, by decide⟩⟩
  have h6 : newManager.v6.InBlock newManager.v6.maxIP ∧
      newManager.v6.InBlock newManager.v6.nextIP :=
    ⟨⟨rfl, rfl, by decide, le_rfl⟩, ⟨rfl, rfl, le_rfl, by decide⟩⟩
  exact ⟨⟨h4.1, h4.2, nofun⟩, ⟨h6.1, h6.2, nofun⟩, rfl, rfl, rfl, rfl⟩

variable {real fake : Addr}

/-- A fake address is kept. -/
theorem getFakeIP_run (h : m.getFakeIP real = some fake) (reals : List Addr) :
    (m.run reals).getFakeIP real = some fake := by
  induction reals generalizing m with
  | nil => exact h
  | cons real' reals ih => exact ih (getFakeIP_of_allocate h)

theorem getFakeIP_of_allocateFakeIP (h : (m.allocateFakeIP real).1 = some fake) :
    (m.allocateFakeIP real).2.getFakeIP real = some fake := by
  rw [getFakeIP_allocateFakeIP, if_pos rfl]
  exact h

/-- The fake address leads back. -/
theorem Blocks.getRealIP (h : m.Blocks) (hfake : m.getFakeIP real = some fake) :
    m.getRealIP fake = some real.unmap := by
  have hpool := (inverse _ _ _).mp hfake
  have hin := (h.pool real.unmap).fakes fake real.unmap hpool
  unfold Manager.getRealIP
  cases hreal : real.unmap with
  | v4 b =>
    rw [hreal] at hpool hin
    cases fake with
    | v4 f => exact hpool
    | v6 f zone =>
      have hlen : (128 : ℕ) = 32 := hin.bitLen.trans m.v4_family
      cases hlen
  | v6 b zone =>
    rw [hreal] at hpool hin
    cases fake with
    | v4 f =>
      have hlen : (32 : ℕ) = 128 := hin.bitLen.trans m.v6_family
      cases hlen
    | v6 f zone' =>
      -- the block is not one of mapped addresses
      have hge : 0x01000000000000000000000000000001 ≤ f.toNat := by
        have hbase := hin.ge
        rw [show (m.pool (.v6 b zone)).baseIP = newManager.v6.baseIP from h.base6] at hbase
        exact hbase
      have hunmap : (Addr.v6 f zone').unmap = .v6 f zone' := by
        rw [Addr.unmap, if_neg]
        simp only [Addr.is4In6, decide_eq_true_eq]
        omega
      rw [hunmap]
      exact hpool

end Manager

open Manager

/-- **Fake addresses are a stable injection**: the maps of the pools are inverse and stay in their
blocks, an allocation fails exactly if there is no free address, and an address keeps its fake one.
-/
theorem fakeIPs_stable_injection (reals : List Addr) : let m := newManager.run reals
    (∀ p ∈ [m.v4, m.v6], (∀ real fake, get p.allocated real = some fake ↔
        get p.fakeToReal fake = some real) ∧
      ∀ fake real, get p.fakeToReal fake = some real → p.InBlock fake) ∧
    (m.v4.baseIP = newManager.v4.baseIP ∧ m.v4.maxIP = newManager.v4.maxIP ∧
      m.v6.baseIP = newManager.v6.baseIP ∧ m.v6.maxIP = newManager.v6.maxIP) ∧
    ∀ real, (m.pool real.unmap).Search (m.pool real.unmap).nextIP
        ((m.pool real.unmap).findFree (m.pool real.unmap).size (m.pool real.unmap).nextIP) ∧
      ((m.allocateFakeIP real).1 = none ↔ m.getFakeIP real = none ∧
        ∀ ip, (m.pool real.unmap).InBlock ip → get (m.pool real.unmap).fakeToReal ip ≠ none) ∧
      ∀ fake, (m.allocateFakeIP real).1 = some fake → ∀ later,
        let m' := (m.allocateFakeIP real).2.run later
        (m'.allocateFakeIP real).1 = some fake ∧ m'.getRealIP fake = some real.unmap ∧
          ∀ real', (m'.allocateFakeIP real').1 = some fake → real'.unmap = real.unmap := by
  intro m
  have h : m.Blocks := blocks_newManager.run reals
  refine ⟨?_, ⟨h.base4, h.max4, h.base6, h.max6⟩, fun real => ⟨?_, ?_, fun fake hfake later => ?_⟩⟩
  · intro p hp
    rcases List.mem_cons.mp hp with rfl | hp
    · exact ⟨inverse _, h.v4.fakes⟩
    · rw [List.mem_singleton.mp hp]
      exact ⟨inverse _, h.v6.fakes⟩
  · exact (h.pool real.unmap).search_start.1
  · refine Iff.trans ?_ ((h.pool real.unmap).allocate_eq_none_iff real.unmap)
    unfold allocateFakeIP pool
    split <;> simp_all
  · have hkept := getFakeIP_run (getFakeIP_of_allocateFakeIP hfake) later
    refine ⟨allocateFakeIP_of_get hkept, ?_, fun real' hreal' => ?_⟩
    · exact ((h.allocateFakeIP real).run later).getRealIP hkept
    · exact eq_of_getFakeIP (getFakeIP_of_allocateFakeIP hreal')
        (getFakeIP_of_allocate hkept)

end FakeIP
