/-
# Addresses of new peers

Model of `AllocatePeerIP` in `management/server/types/network.go`.  An address is looked for at
random a few times and then one after another.  The arithmetic is that of 32-bit numbers: a
prefix of length 0 has 0 addresses by the count, and its scan ends at the last one all the same.

Whatever numbers are drawn, an address is found if there is one (`allocatePeerIP_spec`).
-/
import Mathlib

open List

namespace PeerIPs

/-- An IPv4 prefix. -/
structure IPv4Prefix where
  addr : BitVec 32
  bits : ℕ
  valid : bits ≤ 32

/-- The values of `uint32`; `x - 1` is `x + (2 ^ 32 - 1)`. -/
def uint32 (n : ℕ) : ℕ := n % 2 ^ 32

variable (p : IPv4Prefix)

/-- The number of bits of the host part. -/
def hostBits : ℕ := 32 - p.bits

/-- The network address: `prefix.Masked().Addr()`. -/
def baseIP : ℕ := p.addr.toNat / 2 ^ hostBits p * 2 ^ hostBits p

/-- `uint32(1 << hostBits)`. -/
def totalIPs : ℕ := uint32 (2 ^ hostBits p)

variable (takenIps : List (BitVec 32)) (rng : ℕ → ℕ)

/-- The network and the broadcast address are taken, too. -/
def taken : List ℕ :=
  baseIP p :: uint32 (baseIP p + totalIPs p + (2 ^ 32 - 1)) :: takenIps.map BitVec.toNat

/-- How often an address is drawn; `taken` is a set, and a negative number of attempts is none. -/
def maxAttempts : ℕ := (totalIPs p - (taken p takenIps).toFinset.card) / 100

/-- The offsets that the two loops try, in this order.  `Intn(n)` gives `rng i % n` in its `i`-th
call. -/
def offsets : List ℕ :=
  ((range (maxAttempts p takenIps)).map fun i => rng i % (totalIPs p - 2) + 1) ++
    range' 1 (uint32 (totalIPs p + (2 ^ 32 - 1)) - 1)

/-- `AllocatePeerIP`; the error names the prefix. -/
def allocatePeerIP : Except IPv4Prefix (BitVec 32) :=
  match ((offsets p takenIps rng).map fun offset => uint32 (baseIP p + offset)).find?
      fun candidate => candidate ∉ taken p takenIps with
  | some candidate => .ok (BitVec.ofNat 32 candidate)
  | none => .error p

/-- An address that a peer may get: one of the prefix, but its first and its last, that is not
taken. -/
def Available (ip : BitVec 32) : Prop :=
  ip.toNat / 2 ^ hostBits p = p.addr.toNat / 2 ^ hostBits p ∧ ip.toNat ≠ baseIP p ∧
    ip.toNat ≠ baseIP p + (2 ^ hostBits p - 1) ∧ ip ∉ takenIps

theorem baseIP_add_le : baseIP p + 2 ^ hostBits p ≤ 2 ^ 32 := by
  have hsplit : 2 ^ 32 = 2 ^ p.bits * 2 ^ hostBits p := by
    rw [← pow_add, hostBits, Nat.add_sub_cancel' p.valid]
  have hlt : p.addr.toNat / 2 ^ hostBits p < 2 ^ p.bits := by
    rw [Nat.div_lt_iff_lt_mul (by positivity), ← hsplit]
    exact p.addr.isLt
  rw [baseIP, ← Nat.succ_mul, hsplit]
  exact Nat.mul_le_mul_right _ hlt

/-- The end of the scan and the broadcast address, also where the count is 0. -/
theorem last_eq : uint32 (totalIPs p + (2 ^ 32 - 1)) = 2 ^ hostBits p - 1 ∧
    uint32 (baseIP p + totalIPs p + (2 ^ 32 - 1)) = baseIP p + (2 ^ hostBits p - 1) := by
  have hle := baseIP_add_le p
  have hpos : 0 < 2 ^ hostBits p := by positivity
  unfold totalIPs uint32
  by_cases h : 2 ^ hostBits p = 2 ^ 32
  · rw [h] at hle ⊢
    omega
  · omega

/-- The loops try the addresses between the first and the last one, and all of them. -/
theorem mem_offsets {offset : ℕ} :
    offset ∈ offsets p takenIps rng ↔ 1 ≤ offset ∧ offset < 2 ^ hostBits p - 1 := by
  rw [offsets, mem_append, (last_eq p).1, mem_range'_1]
  refine ⟨fun h => ?_, fun h => .inr (by omega)⟩
  rcases h with hdrawn | hscanned
  · obtain ⟨i, hi, rfl⟩ := mem_map.mp hdrawn
    -- a number is drawn only if there are 100 addresses
    have hi : i < maxAttempts p takenIps := mem_range.mp hi
    have hle : totalIPs p ≤ 2 ^ hostBits p := Nat.mod_le _ _
    unfold maxAttempts at hi
    have hmod := Nat.mod_lt (rng i) (show totalIPs p - 2 > 0 by omega)
    omega
  · omega

theorem available_iff (ip : BitVec 32) : Available p takenIps ip ↔
    (∃ offset ∈ offsets p takenIps rng, ip.toNat = baseIP p + offset) ∧
      ip.toNat ∉ taken p takenIps := by
  have hpos : 0 < 2 ^ hostBits p := by positivity
  have htaken : ip.toNat ∈ takenIps.map BitVec.toNat ↔ ip ∈ takenIps := by
    simp [BitVec.toNat_inj]
  unfold Available taken
  rw [Nat.div_eq_iff hpos, ← baseIP, (last_eq p).2, mem_cons, mem_cons, htaken]
  simp only [mem_offsets]
  constructor
  · rintro ⟨hin, hfirst, hlast, hfree⟩
    exact ⟨⟨ip.toNat - baseIP p, by omega, by omega⟩, by simp [hfirst, hlast, hfree]⟩
  · rintro ⟨⟨offset, hoffset, heq⟩, hfree⟩
    push Not at hfree
    exact ⟨by omega, hfree⟩

/-- **Peers get free addresses.**  For every prefix, whatever is taken and whatever numbers are
drawn, the address is available, and there is an error exactly if none is. -/
theorem allocatePeerIP_spec :
    (∀ ip, allocatePeerIP p takenIps rng = .ok ip → Available p takenIps ip) ∧
    ((∃ e, allocatePeerIP p takenIps rng = .error e) ↔ ¬ ∃ ip, Available p takenIps ip) := by
  have hle := baseIP_add_le p
  have hcandidate : ∀ offset ∈ offsets p takenIps rng,
      uint32 (baseIP p + offset) = baseIP p + offset ∧ baseIP p + offset < 2 ^ 32 := by
    intro offset hoffset
    have hlt := ((mem_offsets p takenIps rng).mp hoffset).2
    exact ⟨Nat.mod_eq_of_lt (by omega), by omega⟩
  unfold allocatePeerIP
  split
  next candidate hfind =>
    obtain ⟨offset, hoffset, rfl⟩ := mem_map.mp (mem_of_find?_eq_some hfind)
    obtain ⟨heq, hlt⟩ := hcandidate offset hoffset
    have hfree := find?_some hfind
    rw [heq] at hfree ⊢
    have havailable : Available p takenIps (BitVec.ofNat 32 (baseIP p + offset)) := by
      rw [available_iff p takenIps rng, BitVec.toNat_ofNat, Nat.mod_eq_of_lt hlt]
      exact ⟨⟨offset, hoffset, rfl⟩, by simpa using hfree⟩
    refine ⟨?_, by simp, fun hnone => absurd ⟨_, havailable⟩ hnone⟩
    rintro ip ⟨⟩
    exact havailable
  next hfind =>
    refine ⟨by simp, fun _ => ?_, fun _ => ⟨p, rfl⟩⟩
    rintro ⟨ip, hip⟩
    obtain ⟨⟨offset, hoffset, heq⟩, hfree⟩ := (available_iff p takenIps rng ip).mp hip
    have htried := find?_eq_none.mp hfind _ (mem_map.mpr ⟨offset, hoffset, rfl⟩)
    rw [(hcandidate offset hoffset).1, ← heq] at htried
    simp [hfree] at htried

end PeerIPs
