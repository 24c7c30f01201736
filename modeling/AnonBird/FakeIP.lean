/-
# Fake addresses

Model of `client/internal/routemanager/fakeip/fakeip.go`: real addresses get fake ones from a block
of their family, for good.  The two maps of a pool are inverse to each other, so no fake address
has two real ones.
-/
import AnonBird.GoMap
import AnonBird.NetIP

open NetIP

namespace FakeIP

export GoMap (get set)

/-- `Addr.Next`, for an address that has a successor. -/
def next : Addr → Addr
  | .v4 b => .v4 (b + 1)
  | .v6 b zone => .v6 (b + 1) zone

/-- `fakeIPPool`. -/
structure Pool where
  baseIP : Addr
  maxIP : Addr
  nextIP : Addr
  allocated : List (Addr × Addr) := []
  fakeToReal : List (Addr × Addr) := []
  inverse : ∀ real fake,
    get allocated real = some fake ↔ get fakeToReal fake = some real
  family : nextIP.bitLen = baseIP.bitLen
  fakes : ∀ fake real, get fakeToReal fake = some real → fake.bitLen = baseIP.bitLen

/-- A pool without allocations. -/
def newPool (base maxAddr : Addr) : Pool where
  baseIP := base
  maxIP := maxAddr
  nextIP := base
  inverse real fake := by simp [get]
  family := rfl
  fakes fake real h := by cases h

theorem bitLen_next (ip : Addr) : (next ip).bitLen = ip.bitLen := by cases ip <;> rfl

theorem zone_next (ip : Addr) : (next ip).zone = ip.zone := by cases ip <;> rfl

theorem value_next {ip top : Addr} (hfamily : ip.bitLen = top.bitLen)
    (hlt : ip.value < top.value) : (next ip).value = ip.value + 1 := by
  cases ip <;> cases top <;>
    simp only [Addr.bitLen, Addr.value, next, BitVec.toNat_add] at hfamily hlt ⊢
  all_goals simp
  all_goals omega

variable {realIP fakeIP : Addr} {real real' fake : Addr}

namespace Pool

variable (p : Pool)

/-- The address after one of the pool, around at the end. -/
def advance (ip : Addr) : Addr := if ip.cmp p.maxIP ≠ .lt then p.baseIP else next ip

/-- The number of addresses of the block. -/
def size : ℕ := p.maxIP.value + 1 - p.baseIP.value

/-- The loop of `allocate`: a free address, if there is one, and where the next search starts. It
makes at most one turn for each address of the block. -/
def findFree : ℕ → Addr → Option Addr × Addr
  | 0, currentIP => (none, currentIP)
  | turns + 1, currentIP =>
    let nextIP := p.advance currentIP
    if (get p.fakeToReal currentIP).isNone then (some currentIP, nextIP)
    else if nextIP = p.nextIP then (none, nextIP)
    else findFree turns nextIP

theorem findFree_spec (turns : ℕ) {currentIP : Addr}
    (hfamily : currentIP.bitLen = p.baseIP.bitLen) :
    (∀ fake, (p.findFree turns currentIP).1 = some fake →
      get p.fakeToReal fake = none ∧ fake.bitLen = p.baseIP.bitLen) ∧
    (p.findFree turns currentIP).2.bitLen = p.baseIP.bitLen := by
  induction turns generalizing currentIP with
  | zero =>
    refine ⟨fun fake h => ?_, hfamily⟩
    cases h
  | succ turns ih =>
    have hadvance : (p.advance currentIP).bitLen = p.baseIP.bitLen := by
      unfold advance
      split
      · rfl
      · rw [bitLen_next, hfamily]
    rw [findFree]
    split
    next hfree =>
      refine ⟨fun fake h => ?_, hadvance⟩
      cases h
      exact ⟨Option.isNone_iff_eq_none.mp hfree, hfamily⟩
    · split
      · refine ⟨fun fake h => ?_, hadvance⟩
        cases h
      · exact ih hadvance

/-- The fake address of a real one, a free one if it has none. -/
def allocate (realIP : Addr) : Option Addr × Pool :=
  match hreal : get p.allocated realIP with
  | some fakeIP => (some fakeIP, p)
  | none =>
    match hfound : p.findFree p.size p.nextIP with
    | (none, nextIP) =>
      (none, { p with
        nextIP := nextIP
        family := by
          have h := (p.findFree_spec p.size p.family).2
          rwa [hfound] at h })
    | (some currentIP, nextIP) =>
      (some currentIP, { p with
        nextIP := nextIP
        allocated := set p.allocated realIP currentIP
        fakeToReal := set p.fakeToReal currentIP realIP
        family := by
          have h := (p.findFree_spec p.size p.family).2
          rwa [hfound] at h
        inverse := by
          have hfree := ((p.findFree_spec p.size p.family).1 currentIP
            (by rw [hfound])).1
          intro real fake
          rw [GoMap.get_set, GoMap.get_set]
          by_cases hr : real = realIP
          · by_cases hf : fake = currentIP
            · simp [hr, hf]
            · rw [if_pos hr, if_neg hf, ← p.inverse, hr, hreal]
              constructor
              · intro h
                exact absurd (Option.some.inj h).symm hf
              · intro h
                cases h
          · by_cases hf : fake = currentIP
            · rw [if_neg hr, if_pos hf, p.inverse, hf, hfree]
              constructor
              · intro h
                cases h
              · intro h
                exact absurd (Option.some.inj h).symm hr
            · rw [if_neg hr, if_neg hf, p.inverse]
        fakes := by
          have hfamily := ((p.findFree_spec p.size p.family).1 currentIP
            (by rw [hfound])).2
          intro fake real h
          obtain ⟨rfl, -⟩ | ⟨-, h⟩ := GoMap.get_set_eq_some.mp h
          · exact hfamily
          · exact p.fakes fake real h })

variable {p}

theorem allocate_baseIP (realIP : Addr) : (p.allocate realIP).2.baseIP = p.baseIP := by
  unfold allocate
  split
  · rfl
  · split <;> rfl

/-- What is allocated stays, and what is new is for the address that was asked for. -/
theorem get_allocated_allocate (realIP real : Addr) : get (p.allocate realIP).2.allocated real =
      if real = realIP then (p.allocate realIP).1 else get p.allocated real := by
  unfold allocate
  split
  next fakeIP hreal =>
    split
    next h =>
      rw [h]
      exact hreal
    · rfl
  next hreal =>
    split
    · split
      next h =>
        rw [h]
        exact hreal
      · rfl
    · exact GoMap.get_set _ _ _ _

theorem allocate_of_get (h : get p.allocated realIP = some fakeIP) :
    (p.allocate realIP).1 = some fakeIP := by
  unfold allocate
  split
  next fakeIP' h' =>
    rw [h] at h'
    exact h'.symm
  next h' =>
    rw [h] at h'
    cases h'

theorem eq_of_get_allocated (h : get p.allocated real = some fake)
    (h' : get p.allocated real' = some fake) : real = real' := by
  rw [p.inverse] at h h'
  rw [h] at h'
  exact Option.some.inj h'

end Pool

/-! ## The manager -/

/-- `Manager`: a pool for each family. -/
structure Manager where
  v4 : Pool
  v6 : Pool
  v4_family : v4.baseIP.bitLen = 32
  v6_family : v6.baseIP.bitLen = 128

/-- The pools over the reserved ranges. -/
def newManager : Manager where
  v4 := newPool (.v4 0xF0000001#32) (.v4 0xF0FFFFFE#32)
  v6 := newPool (.v6 0x01000000000000000000000000000001#128 [])
    (.v6 0x0100000000000000FFFFFFFFFFFFFFFE#128 [])
  v4_family := rfl
  v6_family := rfl

open Pool

namespace Manager

variable (m : Manager)

/-- The pool of the family of an address. -/
def pool (ip : Addr) : Pool :=
  match ip with
  | .v6 _ _ => m.v6
  | .v4 _ => m.v4

/-- The fake address of an address, from the pool of its family. -/
def allocateFakeIP (realIP : Addr) : Option Addr × Manager :=
  match realIP.unmap with
  | .v6 b zone =>
    ((m.v6.allocate (.v6 b zone)).1,
      { m with
        v6 := (m.v6.allocate (.v6 b zone)).2
        v6_family := by rw [allocate_baseIP, m.v6_family] })
  | .v4 b =>
    ((m.v4.allocate (.v4 b)).1,
      { m with
        v4 := (m.v4.allocate (.v4 b)).2
        v4_family := by rw [allocate_baseIP, m.v4_family] })

/-- The fake address that a real one has. -/
def getFakeIP (realIP : Addr) : Option Addr :=
  get (m.pool realIP.unmap).allocated realIP.unmap

variable {m}

/-- An allocation decides the address that it is for, and no other. -/
theorem getFakeIP_allocateFakeIP (realIP real : Addr) : (m.allocateFakeIP realIP).2.getFakeIP real =
      if real.unmap = realIP.unmap then (m.allocateFakeIP realIP).1 else m.getFakeIP real := by
  unfold allocateFakeIP getFakeIP
  cases hip : realIP.unmap with
  | v4 b =>
    cases hreal : real.unmap with
    | v4 b' => exact get_allocated_allocate _ _
    | v6 b' zone => exact (if_neg (by simp)).symm
  | v6 b zone =>
    cases hreal : real.unmap with
    | v4 b' => exact (if_neg (by simp)).symm
    | v6 b' zone' => exact get_allocated_allocate _ _

theorem allocateFakeIP_of_get (h : m.getFakeIP realIP = some fakeIP) :
    (m.allocateFakeIP realIP).1 = some fakeIP := by
  unfold getFakeIP at h
  unfold allocateFakeIP
  cases hip : realIP.unmap with
  | v4 b | v6 b zone =>
    rw [hip] at h
    exact allocate_of_get h

theorem getFakeIP_of_allocate {realIP real fakeIP : Addr} (h : m.getFakeIP real = some fakeIP) :
    (m.allocateFakeIP realIP).2.getFakeIP real = some fakeIP := by
  rw [getFakeIP_allocateFakeIP]
  split
  next hsame =>
    have hreal : m.getFakeIP realIP = some fakeIP := by
      rw [getFakeIP, ← hsame]
      exact h
    exact allocateFakeIP_of_get hreal
  · exact h

theorem bitLen_of_getFakeIP (h : m.getFakeIP realIP = some fakeIP) :
    fakeIP.bitLen = realIP.unmap.bitLen := by
  unfold getFakeIP at h
  cases hip : realIP.unmap with
  | v4 b =>
    rw [hip] at h
    rw [m.v4.fakes _ _ ((m.v4.inverse _ _).mp h), m.v4_family]
    rfl
  | v6 b zone =>
    rw [hip] at h
    rw [m.v6.fakes _ _ ((m.v6.inverse _ _).mp h), m.v6_family]
    rfl

/-- A fake address stands for one real address. -/
theorem eq_of_getFakeIP (h : m.getFakeIP real = some fake)
    (h' : m.getFakeIP real' = some fake) : real.unmap = real'.unmap := by
  have hfamily : real.unmap.bitLen = real'.unmap.bitLen :=
    (bitLen_of_getFakeIP h).symm.trans (bitLen_of_getFakeIP h')
  unfold getFakeIP at h h'
  cases hreal : real.unmap with
  | v4 b =>
    cases hreal' : real'.unmap with
    | v4 b' =>
      rw [hreal] at h
      rw [hreal'] at h'
      exact eq_of_get_allocated h h'
    | v6 b' zone =>
      rw [hreal, hreal'] at hfamily
      exact absurd hfamily (show (32 : ℕ) ≠ 128 by decide)
  | v6 b zone =>
    cases hreal' : real'.unmap with
    | v4 b' =>
      rw [hreal, hreal'] at hfamily
      exact absurd hfamily (show (128 : ℕ) ≠ 32 by decide)
    | v6 b' zone' =>
      rw [hreal] at h
      rw [hreal'] at h'
      exact eq_of_get_allocated h h'

end Manager

end FakeIP
