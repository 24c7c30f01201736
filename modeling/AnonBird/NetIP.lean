/-
# IP addresses as the Go standard library represents them

The part of `net/netip` that the client uses on wire addresses: an address is an
IPv4 or an IPv6 value, IPv6 values may carry a zone, and addresses are ordered by
bit length, then value, then zone.  Strings and packets are byte lists, as in Go.
-/
import AnonBird.GoStrings

open GoStrings

namespace NetIP

/-- `netip.Addr`, without its zero value. -/
inductive Addr where
  | v4 (bits : BitVec 32)
  | v6 (bits : BitVec 128) (zone : Bytes)
  deriving DecidableEq, Repr

namespace Addr

/-- `netip.AddrFromSlice`: four bytes are an IPv4 address, sixteen an IPv6 one. -/
def fromSlice (s : Bytes) : Option Addr :=
  if s.length = 4 then some (v4 (BitVec.ofNat 32 (bigEndian s)))
  else if s.length = 16 then some (v6 (BitVec.ofNat 128 (bigEndian s)) [])
  else none

/-- `Addr.Is4In6`: an IPv6 value in `::ffff:0:0/96`. -/
def is4In6 : Addr → Bool
  | v4 _ => false
  | v6 b _ => b.toNat / 2 ^ 32 = 0xffff

/-- `Addr.Unmap`: strip the `::ffff:0:0/96` prefix, and the zone with it. -/
def unmap : Addr → Addr
  | v4 b => v4 b
  | v6 b z => if (v6 b z).is4In6 then v4 (BitVec.ofNat 32 b.toNat) else v6 b z

/-- `BitLen`. -/
def bitLen : Addr → ℕ
  | v4 _ => 32
  | v6 _ _ => 128

/-- The address as a number. -/
def value : Addr → ℕ
  | v4 b => b.toNat
  | v6 b _ => b.toNat

/-- `Zone`. -/
def zone : Addr → Bytes
  | v4 _ => []
  | v6 _ z => z

/-- `Addr.Compare`: by bit length, then value, then zone. -/
def cmp (a b : Addr) : Ordering :=
  (compare a.bitLen b.bitLen).then ((compare a.value b.value).then (compare a.zone b.zone))

/-- The `n` low bytes of a number, most significant first. -/
def toBytes (n v : ℕ) : Bytes :=
  (List.range n).reverse.map fun i => UInt8.ofNat (v / 256 ^ i)

/-- `Addr.As16`: IPv4 addresses appear in their IPv4-mapped form. -/
def as16 : Addr → Bytes
  | v4 b => List.replicate 10 0 ++ [0xff, 0xff] ++ toBytes 4 b.toNat
  | v6 b _ => toBytes 16 b.toNat

/-- `AsSlice`. -/
def asSlice : Addr → Bytes
  | v4 b => toBytes 4 b.toNat
  | v6 b _ => toBytes 16 b.toNat

@[simp] theorem unmap_unmap (ip : Addr) : ip.unmap.unmap = ip.unmap := by
  cases ip with
  | v4 b => rfl
  | v6 b zone =>
    by_cases h : (v6 b zone).is4In6 <;> simp [unmap, h]

end Addr

/-- `netip.Prefix`: an address and a number of leading bits. -/
structure Prefix where
  addr : Addr
  bits : ℕ
  deriving DecidableEq, Repr

/-- `Prefix.Contains`: same family, no zone on the address, equal leading bits. -/
def Prefix.contains (p : Prefix) (ip : Addr) : Bool :=
  p.bits ≤ p.addr.bitLen && ip.zone = [] && p.addr.bitLen = ip.bitLen &&
    ip.value / 2 ^ (ip.bitLen - p.bits) = p.addr.value / 2 ^ (ip.bitLen - p.bits)

/-! ## The order on addresses -/

open Std

namespace Addr

instance : TransCmp cmp :=
  inferInstanceAs (TransCmp (compareLex (compareOn bitLen)
    (compareLex (compareOn value) (compareOn zone))))

instance : Ord Addr := ⟨cmp⟩

instance : TransOrd Addr := inferInstanceAs (TransCmp cmp)

theorem cmp_swap (a b : Addr) : (a.cmp b).swap = b.cmp a := OrientedCmp.eq_swap.symm

@[simp] theorem cmp_self (a : Addr) : a.cmp a = .eq := ReflCmp.compare_self

theorem ext_parts {a b : Addr} (hlen : a.bitLen = b.bitLen) (hval : a.value = b.value)
    (hzone : a.zone = b.zone) : a = b := by
  cases a <;> cases b <;> simp only [bitLen, value, zone] at hlen hval hzone
  · rw [BitVec.eq_of_toNat_eq hval]
  · omega
  · omega
  · rw [BitVec.eq_of_toNat_eq hval, hzone]

theorem eq_of_cmp_eq (a b : Addr) (h : a.cmp b = .eq) : a = b := by
  unfold cmp at h
  rw [Ordering.then_eq_eq, Ordering.then_eq_eq, LawfulEqCmp.compare_eq_iff_eq,
    LawfulEqCmp.compare_eq_iff_eq, LawfulEqCmp.compare_eq_iff_eq] at h
  exact ext_parts h.1 h.2.1 h.2.2

end Addr

end NetIP
