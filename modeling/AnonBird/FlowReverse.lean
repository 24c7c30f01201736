/-
# A packet, its reverse and its fragments have one flow key

Well-formed packets, the extension-header chain, the reverse of a packet and the fragments of a
datagram are stated on the bytes, without the parser; the parser is tied to them by
`classifyIPv4_of_wellFormed` and `extensionHeaders_of_chain`.  All rests on `canonicalFlow_swap`:
exchanging both addresses and both ports keeps the canonical key.
-/
import AnonBird.FlowKey

open GoStrings NetIP

namespace Multipath

open PacketInfo

/-! ## The symmetry of the canonical key -/

theorem compareEndpoint_swap (a b : Addr) (p q : UInt16) :
    (compareEndpoint a p b q).swap = compareEndpoint b q a p := by
  unfold compareEndpoint
  rw [Ordering.swap_then, Addr.cmp_swap, ← Std.OrientedCmp.eq_swap]

theorem eq_of_compareEndpoint_eq (a b : Addr) (p q : UInt16)
    (h : compareEndpoint a p b q = .eq) : a = b ∧ p = q := by
  unfold compareEndpoint at h
  rw [Ordering.then_eq_eq] at h
  exact ⟨Addr.eq_of_cmp_eq a b h.1, Std.LawfulEqCmp.compare_eq_iff_eq.mp h.2⟩

/-- **Direction neutrality.**  Exchanging the addresses, over payloads whose ports
are exchanged, leaves the canonical key as it is. -/
theorem canonicalFlow_swap (src dst : Addr) (proto : UInt8) (payload payload' : Bytes)
    (fragmented : Bool)
    (hports : ports proto payload' fragmented = (ports proto payload fragmented).swap) :
    canonicalFlow dst src proto payload' fragmented
      = canonicalFlow src dst proto payload fragmented := by
  unfold canonicalFlow
  rw [hports]
  simp only [Prod.fst_swap, Prod.snd_swap]
  have hswap := compareEndpoint_swap src.unmap dst.unmap
    (ports proto payload fragmented).1 (ports proto payload fragmented).2
  cases hcmp : compareEndpoint src.unmap (ports proto payload fragmented).1
      dst.unmap (ports proto payload fragmented).2 with
  | lt | gt =>
    rw [hcmp] at hswap
    rw [← hswap]
    simp
  | eq =>
    -- on a tie nothing is exchanged in either direction, and nothing needs to be
    obtain ⟨haddr, hport⟩ := eq_of_compareEndpoint_eq _ _ _ _ hcmp
    rw [← hswap, haddr, hport]
    simp

/-! ## The reverse of a transport payload -/

/-- An ICMP or ICMPv6 echo that is long enough to carry its identifier. -/
def IsEcho (proto : UInt8) (payload : Bytes) : Prop :=
  6 ≤ payload.length ∧
    ((proto = protocolICMPv4 ∧ (byteAt payload 0 = 0 ∨ byteAt payload 0 = 8)) ∨
      (proto = protocolICMPv6 ∧ (byteAt payload 0 = 128 ∨ byteAt payload 0 = 129)))

instance (proto : UInt8) (payload : Bytes) : Decidable (IsEcho proto payload) :=
  inferInstanceAs (Decidable (_ ∧ _))

/-- The echo type that answers, or asks for, an echo type. -/
def echoPeer (icmpType : UInt8) : UInt8 :=
  if icmpType = 0 then 8 else if icmpType = 8 then 0
  else if icmpType = 128 then 129 else 128

/-- The payload `b` reverses the payload `a`: TCP and UDP ports change places, an echo request
becomes an echo reply with the same identifier and the other way round, and everything else is free.
-/
structure ReversePayload (proto : UInt8) (a b : Bytes) : Prop where
  portsPresent : proto = protocolTCP ∨ proto = protocolUDP →
    (4 ≤ a.length ↔ 4 ≤ b.length)
  portsSwapped : proto = protocolTCP ∨ proto = protocolUDP → 4 ≤ a.length →
    uint16At b 0 = uint16At a 2 ∧ uint16At b 2 = uint16At a 0
  echoPresent : IsEcho proto a ↔ IsEcho proto b
  echoAnswered : IsEcho proto a →
    byteAt b 0 = echoPeer (byteAt a 0) ∧ uint16At b 4 = uint16At a 4

/-- Outside TCP and UDP the ports are the echo identifier, twice, or zeros. -/
theorem ports_of_not_tcp_udp (proto : UInt8) (payload : Bytes)
    (hproto : ¬ (proto = protocolTCP ∨ proto = protocolUDP)) : ports proto payload false
      = if IsEcho proto payload then (uint16At payload 4, uint16At payload 4) else (0, 0) := by
  unfold ports
  rw [if_neg (by simp), if_neg hproto]
  by_cases hecho : IsEcho proto payload
  · rw [if_pos hecho]
    obtain ⟨hlen, h4 | h6⟩ := hecho
    · rw [if_pos (.inl h4.1), if_neg (by omega), if_pos h4]
    · rw [if_pos (.inr h6.1), if_neg (by omega)]
      dsimp only
      rw [if_pos h6]
      exact ite_self _
  · rw [if_neg hecho]
    have h4 : 6 ≤ payload.length →
        ¬ (proto = protocolICMPv4 ∧ (byteAt payload 0 = 0 ∨ byteAt payload 0 = 8)) :=
      fun hlen h => hecho ⟨hlen, .inl h⟩
    have h6 : 6 ≤ payload.length →
        ¬ (proto = protocolICMPv6 ∧ (byteAt payload 0 = 128 ∨ byteAt payload 0 = 129)) :=
      fun hlen h => hecho ⟨hlen, .inr h⟩
    by_cases hlen : payload.length < 6
    · rw [if_pos hlen]
      exact ite_self _
    · rw [if_neg hlen, if_neg (h4 (by omega)), if_neg (h6 (by omega))]
      exact ite_self _

theorem ports_of_tcp_udp (proto : UInt8) (payload : Bytes)
    (hproto : proto = protocolTCP ∨ proto = protocolUDP) : ports proto payload false
      = if payload.length < 4 then (0, 0) else (uint16At payload 0, uint16At payload 2) := by
  unfold ports
  rw [if_neg (by simp), if_pos hproto]

theorem ports_reverse (proto : UInt8) (a b : Bytes) (h : ReversePayload proto a b) :
    ports proto b false = (ports proto a false).swap := by
  by_cases hproto : proto = protocolTCP ∨ proto = protocolUDP
  · rw [ports_of_tcp_udp proto a hproto, ports_of_tcp_udp proto b hproto]
    have hlen := h.portsPresent hproto
    by_cases ha : a.length < 4
    · rw [if_pos ha, if_pos (by omega)]
      rfl
    · obtain ⟨h1, h2⟩ := h.portsSwapped hproto (by omega)
      rw [if_neg ha, if_neg (by omega), h1, h2]
      rfl
  · rw [ports_of_not_tcp_udp proto a hproto, ports_of_not_tcp_udp proto b hproto]
    by_cases hecho : IsEcho proto a
    · rw [if_pos hecho, if_pos (h.echoPresent.mp hecho), (h.echoAnswered hecho).2]
      rfl
    · rw [if_neg hecho, if_neg (fun hb => hecho (h.echoPresent.mpr hb))]
      rfl

/-! ## IPv4 packets -/

variable (p : Bytes)

/-- The header length in bytes, from the low nibble of the first byte. -/
def headerLen4 : ℕ := (byteAt p 0 &&& 0x0f).toNat * 4

/-- The declared total length. -/
def totalLen4 : ℕ := (uint16At p 2).toNat

/-- More fragments follow, or the fragment offset is not zero. -/
def fragmented4 : Bool := uint16At p 6 &&& 0x3fff ≠ 0

/-- The bytes between the header and the declared end. -/
def payload4 : Bytes := (p.take (totalLen4 p)).drop (headerLen4 p)

/-- The IPv4 address at offset `i`. -/
def addr4 (i : ℕ) : Addr := .v4 (BitVec.ofNat 32 (bigEndian (slice p i (i + 4))))

/-- An IPv4 packet with a complete header and consistent lengths. -/
structure WellFormed4 (p : Bytes) : Prop where
  version : byteAt p 0 >>> 4 = 4
  header : 20 ≤ headerLen4 p
  total : headerLen4 p ≤ totalLen4 p
  fits : totalLen4 p ≤ p.length

theorem fromSlice_four (i : ℕ) (h : i + 4 ≤ p.length) :
    Addr.fromSlice (slice p i (i + 4)) = some (addr4 p i) := by
  unfold Addr.fromSlice addr4
  rw [if_pos (by rw [length_slice p i (i + 4) h]; omega)]

theorem classifyIPv4_of_wellFormed (h : WellFormed4 p) : classifyIPv4 p = .ok
      ⟨canonicalFlow (addr4 p 12) (addr4 p 16) (byteAt p 9) (payload4 p) (fragmented4 p),
        addr4 p 12, addr4 p 16⟩ := by
  obtain ⟨-, hheader, htotal, hfits⟩ := h
  have hbody : (if totalLen4 p < p.length then p.take (totalLen4 p) else p)
      = p.take (totalLen4 p) := by
    split
    · rfl
    · rw [List.take_of_length_le (by omega)]
  unfold classifyIPv4
  rw [if_neg (by omega)]
  dsimp only
  rw [if_neg (by unfold headerLen4 at *; omega)]
  rw [if_neg (by unfold headerLen4 totalLen4 at *; omega)]
  rw [show (uint16At p 2).toNat = totalLen4 p from rfl, hbody,
    slice_take p _ 12 16 (by omega), slice_take p _ 16 20 (by omega),
    fromSlice_four p 12 (by omega), fromSlice_four p 16 (by omega)]
  rw [byteAt_take p _ 9 (by omega), uint16At_take p _ 6 (by omega)]
  rfl

theorem wellFormed4_of_classifyIPv4 (info : PacketInfo)
    (hversion : byteAt p 0 >>> 4 = 4) (h : classifyIPv4 p = .ok info) : WellFormed4 p := by
  unfold classifyIPv4 at h
  dsimp only at h
  split at h
  · simp at h
  · split at h
    · simp at h
    · split at h
      · simp at h
      · refine ⟨hversion, ?_, ?_, ?_⟩
        · unfold headerLen4
          omega
        · unfold headerLen4 totalLen4
          omega
        · unfold totalLen4
          omega

/-- The packet `q` is the reverse of the IPv4 packet `p`: the addresses change places, the header
keeps its length and protocol, and the payload of an unfragmented packet is reversed. -/
structure Reverse4 (p q : Bytes) : Prop where
  wellFormed : WellFormed4 q
  header : byteAt q 0 = byteAt p 0
  options : slice q 20 (headerLen4 p) = slice p 20 (headerLen4 p)
  protocol : byteAt q 9 = byteAt p 9
  source : slice q 12 16 = slice p 16 20
  destination : slice q 16 20 = slice p 12 16
  fragment : fragmented4 q = fragmented4 p
  payload : fragmented4 p = false → ReversePayload (byteAt p 9) (payload4 p) (payload4 q)

theorem classifyIPv4_reverse (p q : Bytes) (hp : WellFormed4 p) (h : Reverse4 p q) :
    (classifyIPv4 q).map flow = (classifyIPv4 p).map flow := by
  rw [classifyIPv4_of_wellFormed p hp, classifyIPv4_of_wellFormed q h.wellFormed]
  have hsrc : addr4 q 12 = addr4 p 16 := by unfold addr4; rw [h.source]
  have hdst : addr4 q 16 = addr4 p 12 := by unfold addr4; rw [h.destination]
  simp only [Except.map]
  rw [hsrc, hdst, h.protocol, h.fragment, canonicalFlow_swap]
  cases hfrag : fragmented4 p with
  -- the ports of a fragment are zeros on both sides
  | true => rfl
  | false => exact ports_reverse _ _ _ (h.payload hfrag)

/-! ## IPv6 packets -/

/-- The declared payload length; zero stands for the whole buffer. -/
def payloadLen6 : ℕ := (uint16At p 4).toNat

/-- The packet up to its declared end. -/
def body6 : Bytes := if payloadLen6 p ≠ 0 then p.take (40 + payloadLen6 p) else p

/-- The IPv6 address at offset `i`. -/
def addr6 (i : ℕ) : Addr :=
  .v6 (BitVec.ofNat 128 (bigEndian (slice p i (i + 16)))) []

/-- An IPv6 packet with a complete fixed header and a consistent payload length. -/
structure WellFormed6 (p : Bytes) : Prop where
  version : byteAt p 0 >>> 4 = 6
  len : 40 ≤ p.length
  fits : payloadLen6 p ≠ 0 → 40 + payloadLen6 p ≤ p.length

theorem fromSlice_sixteen (i : ℕ) (h : i + 16 ≤ p.length) :
    Addr.fromSlice (slice p i (i + 16)) = some (addr6 p i) := by
  have hlen := length_slice p i (i + 16) h
  unfold Addr.fromSlice addr6
  rw [if_neg (by omega), if_pos (by omega)]

theorem slice_body6 (i j : ℕ) (h : j ≤ 40) : slice (body6 p) i j = slice p i j := by
  unfold body6
  split
  · exact slice_take p _ i j (by omega)
  · rfl

theorem byteAt_body6 (i : ℕ) (h : i < 40) : byteAt (body6 p) i = byteAt p i := by
  unfold body6
  split
  · exact byteAt_take p _ i (by omega)
  · rfl

theorem forty_le_length_body6 (h : WellFormed6 p) : 40 ≤ (body6 p).length := by
  have hlen := h.len
  unfold body6
  split
  · rw [List.length_take]
    omega
  · exact hlen

/-- The IPv6 parser on a well-formed packet: what remains is the extension-header
loop. -/
theorem classifyIPv6_of_wellFormed (h : WellFormed6 p) :
    classifyIPv6 p = (extensionHeaders (body6 p) (byteAt p 6) 40).map fun r =>
      ⟨canonicalFlow (addr6 p 8).unmap (addr6 p 24).unmap r.1 r.2.1 r.2.2,
        (addr6 p 8).unmap, (addr6 p 24).unmap⟩ := by
  have hbody := forty_le_length_body6 p h
  have hlen := h.len
  have hfits := h.fits
  unfold classifyIPv6
  rw [if_neg (by omega)]
  dsimp only
  rw [if_neg (by unfold payloadLen6 at *; omega)]
  rw [show (if (uint16At p 4).toNat ≠ 0 then p.take (40 + (uint16At p 4).toNat) else p)
      = body6 p from rfl, fromSlice_sixteen (body6 p) 8 (by omega),
    fromSlice_sixteen (body6 p) 24 (by omega), byteAt_body6 p 6 (by omega)]
  have haddr : ∀ i, i + 16 ≤ 40 → addr6 (body6 p) i = addr6 p i := by
    intro i hi
    unfold addr6
    rw [slice_body6 p i (i + 16) hi]
  rw [haddr 8 (by omega), haddr 24 (by omega)]
  cases extensionHeaders (body6 p) (byteAt p 6) 40 <;> rfl

theorem wellFormed6_of_classifyIPv6 (info : PacketInfo)
    (hversion : byteAt p 0 >>> 4 = 6) (h : classifyIPv6 p = .ok info) : WellFormed6 p := by
  unfold classifyIPv6 at h
  dsimp only at h
  split at h
  · simp at h
  · split at h
    · simp at h
    · refine ⟨hversion, by omega, ?_⟩
      unfold payloadLen6
      omega

/-! ## The extension-header chain -/

/-- The length of an extension header that the walk passes over: units of eight bytes, or of four in
the authentication header. -/
def skipLen (nh : UInt8) (off : ℕ) : Option ℕ :=
  if nh = 0 ∨ nh = 43 ∨ nh = 60 then some (((byteAt p (off + 1)).toNat + 1) * 8)
  else if nh = 51 then some (((byteAt p (off + 1)).toNat + 2) * 4)
  else none

/-- The chain from the header of type `nh` at `off` ends at the header `nh'` at
`off'`: every header on the way lies inside the packet and names the next one. -/
inductive Chain (p : Bytes) : UInt8 → ℕ → UInt8 → ℕ → Prop
  | done {nh off} : skipLen p nh off = none → Chain p nh off nh off
  | skip {nh off n nh' off'} :
      skipLen p nh off = some n → off + n ≤ p.length →
      Chain p (byteAt p off) (off + n) nh' off' → Chain p nh off nh' off'

theorem eight_le_skipLen (nh : UInt8) (off n : ℕ) (h : skipLen p nh off = some n) : 8 ≤ n := by
  unfold skipLen at h
  split at h
  · simp only [Option.some.injEq] at h
    omega
  · split at h
    · simp only [Option.some.injEq] at h
      omega
    · simp at h

/-- Whether a header is passed over depends on its type only. -/
theorem skipLen_none_congr (p q : Bytes) (nh : UInt8) (off off' : ℕ)
    (h : skipLen p nh off = none) : skipLen q nh off' = none := by
  unfold skipLen at *
  split at h
  · simp at h
  next hopt =>
    rw [if_neg hopt]
    split at h
    · simp at h
    next hah =>
      rw [if_neg hah]

variable {p : Bytes} {nh nh' : UInt8} {off off' : ℕ}

theorem Chain.le (h : Chain p nh off nh' off') : off ≤ off' := by
  induction h with
  | done _ => exact le_rfl
  | skip _ _ _ ih => omega

theorem Chain.end_not_skipped (h : Chain p nh off nh' off') : skipLen p nh' off' = none := by
  induction h with
  | done h => exact h
  | skip _ _ _ ih => exact ih

theorem extensionHeaders_skip (p : Bytes) (nh : UInt8) (off n : ℕ)
    (h : skipLen p nh off = some n) (hfit : off + n ≤ p.length) :
    extensionHeaders p nh off = extensionHeaders p (byteAt p off) (off + n) := by
  unfold skipLen at h
  -- only the left side takes its turn; the right side is the loop at the next header
  conv_lhs => unfold extensionHeaders
  split at h
  next hopt =>
    simp only [Option.some.injEq] at h
    subst h
    rw [if_pos hopt, if_neg (by omega), if_neg (by omega)]
  next hopt =>
    split at h
    next hah =>
      simp only [Option.some.injEq] at h
      subst h hah
      rw [if_neg (by decide), if_neg (by decide), if_pos rfl, if_neg (by omega), if_neg (by omega)]
    · simp at h

/-- The loop at the end of a chain that stops before a Fragment header. -/
theorem extensionHeaders_fragment (p : Bytes) (off : ℕ) (hfit : off + 8 ≤ p.length) :
    extensionHeaders p 44 off = .ok (byteAt p off, [], true) := by
  unfold extensionHeaders
  rw [if_neg (by decide), if_pos rfl, if_neg (by omega)]

theorem extensionHeaders_done (p : Bytes) (nh : UInt8) (off : ℕ)
    (h : skipLen p nh off = none) (h44 : nh ≠ 44) :
    extensionHeaders p nh off = .ok (nh, p.drop off, false) := by
  unfold skipLen at h
  unfold extensionHeaders
  split at h
  · simp at h
  next hopt =>
    split at h
    · simp at h
    next hah =>
      rw [if_neg hopt, if_neg h44, if_neg hah]

/-- **The walk follows the chain**: the loop at the start of a chain computes what it
computes at its end. -/
theorem extensionHeaders_of_chain (h : Chain p nh off nh' off') :
    extensionHeaders p nh off = extensionHeaders p nh' off' := by
  induction h with
  | done _ => rfl
  | skip hlen hfit _ ih => rw [extensionHeaders_skip p _ _ _ hlen hfit, ih]

/-- A packet that agrees with `p` along a chain has the same chain. -/
theorem Chain.congr {q : Bytes} (h : Chain p nh off nh' off') (hq : off' ≤ q.length)
    (hagree : ∀ i, off ≤ i → i < off' → byteAt q i = byteAt p i) : Chain q nh off nh' off' := by
  induction h with
  | done hend => exact .done (skipLen_none_congr p q _ _ _ hend)
  | @skip nh off n nh' off' hlen hfit hrest ih =>
    have h8 := eight_le_skipLen p nh off n hlen
    have hle := hrest.le
    have hlen' : skipLen q nh off = some n := by
      rw [← hlen]
      unfold skipLen
      rw [hagree (off + 1) (by omega) (by omega)]
    refine .skip hlen' (by omega) ?_
    rw [hagree off (by omega) (by omega)]
    exact ih hq fun i hi hi' => hagree i (by omega) hi'

/-- The packet `q` is the reverse of the IPv6 packet `p`, whose chain ends at the header `nh` at
`off`. Behind a Fragment header only the protocol has to agree. -/
structure Reverse6 (p q : Bytes) (nh : UInt8) (off : ℕ) : Prop where
  wellFormed : WellFormed6 q
  nextHeader : byteAt q 6 = byteAt p 6
  source : slice q 8 24 = slice p 24 40
  destination : slice q 24 40 = slice p 8 24
  chain : Chain (body6 p) (byteAt p 6) 40 nh off
  sameChain : off ≤ (body6 q).length ∧
    ∀ i, 40 ≤ i → i < off → byteAt (body6 q) i = byteAt (body6 p) i
  fragment : nh = 44 → off + 8 ≤ (body6 q).length ∧ byteAt (body6 q) off = byteAt (body6 p) off
  payload : nh ≠ 44 → ReversePayload nh ((body6 p).drop off) ((body6 q).drop off)

theorem classifyIPv6_reverse (p q : Bytes) (nh : UInt8) (off : ℕ) (info : PacketInfo)
    (hp : WellFormed6 p) (hok : classifyIPv6 p = .ok info) (h : Reverse6 p q nh off) :
    (classifyIPv6 q).map flow = .ok info.flow := by
  have hsrc : addr6 q 8 = addr6 p 24 := by unfold addr6; rw [h.source]
  have hdst : addr6 q 24 = addr6 p 8 := by unfold addr6; rw [h.destination]
  have hchain := h.chain.congr h.sameChain.1 h.sameChain.2
  rw [classifyIPv6_of_wellFormed p hp, extensionHeaders_of_chain h.chain] at hok
  rw [classifyIPv6_of_wellFormed q h.wellFormed, h.nextHeader,
    extensionHeaders_of_chain hchain, hsrc, hdst]
  by_cases h44 : nh = 44
  · subst h44
    obtain ⟨hfit, hproto⟩ := h.fragment rfl
    rw [extensionHeaders_fragment _ _ hfit]
    by_cases hfitp : off + 8 ≤ (body6 p).length
    · rw [extensionHeaders_fragment _ _ hfitp] at hok
      simp only [Except.map, Except.ok.injEq] at hok ⊢
      rw [← hok, hproto]
      exact canonicalFlow_swap _ _ _ _ _ _ rfl
    · -- `p` was accepted, so its Fragment header is complete
      unfold extensionHeaders at hok
      rw [if_neg (by decide), if_pos rfl, if_pos (by omega)] at hok
      simp [Except.map] at hok
  · have hend := h.chain.end_not_skipped
    rw [extensionHeaders_done _ _ _ hend h44] at hok
    rw [extensionHeaders_done _ _ _ (skipLen_none_congr _ _ _ _ _ hend) h44]
    simp only [Except.map, Except.ok.injEq] at hok ⊢
    rw [← hok]
    exact canonicalFlow_swap _ _ _ _ _ _ (ports_reverse _ _ _ (h.payload h44))

/-! ## Reverse packets and fragments of one datagram -/

/-- The packet `q` travels in the direction opposite to `p`. -/
inductive Reverse (p q : Bytes) : Prop
  | v4 : byteAt p 0 >>> 4 = 4 → Reverse4 p q → Reverse p q
  | v6 (nh : UInt8) (off : ℕ) : byteAt p 0 >>> 4 = 6 → Reverse6 p q nh off → Reverse p q

/-- Two IPv4 fragments of one datagram. -/
structure Fragments4 (p q : Bytes) : Prop where
  left : WellFormed4 p
  right : WellFormed4 q
  leftFragment : fragmented4 p = true
  rightFragment : fragmented4 q = true
  source : slice q 12 16 = slice p 12 16
  destination : slice q 16 20 = slice p 16 20
  protocol : byteAt q 9 = byteAt p 9

/-- Two IPv6 fragments of one datagram, each with a Fragment header after its chain. -/
structure Fragments6 (p q : Bytes) (off off' : ℕ) : Prop where
  left : WellFormed6 p
  right : WellFormed6 q
  leftChain : Chain (body6 p) (byteAt p 6) 40 44 off
  rightChain : Chain (body6 q) (byteAt q 6) 40 44 off'
  leftFits : off + 8 ≤ (body6 p).length
  rightFits : off' + 8 ≤ (body6 q).length
  source : slice q 8 24 = slice p 8 24
  destination : slice q 24 40 = slice p 24 40
  protocol : byteAt (body6 q) off' = byteAt (body6 p) off

/-- The packets `p` and `q` are fragments of one datagram. -/
inductive SameDatagram (p q : Bytes) : Prop
  | v4 : Fragments4 p q → SameDatagram p q
  | v6 (off off' : ℕ) : Fragments6 p q off off' → SameDatagram p q

theorem classifyPacket_v4 (p : Bytes) (hlen : 20 ≤ p.length) (h : byteAt p 0 >>> 4 = 4) :
    classifyPacket p = (classifyIPv4 p).map flow := by
  unfold classifyPacket classifyPacketInfo
  rw [if_neg (by omega), if_pos h]

theorem classifyPacket_v6 (p : Bytes) (hlen : 40 ≤ p.length) (h : byteAt p 0 >>> 4 = 6) :
    classifyPacket p = (classifyIPv6 p).map flow := by
  unfold classifyPacket classifyPacketInfo
  rw [if_neg (by omega), if_neg (by rw [h]; decide), if_pos h]

/-- The parser's answer behind an accepted classification. -/
theorem exists_info_of_classifyPacket (p : Bytes) (k : FlowKey) (h : classifyPacket p = .ok k) :
    ∃ info, classifyPacketInfo p = .ok info ∧ info.flow = k := by
  unfold classifyPacket at h
  cases hinfo : classifyPacketInfo p with
  | error e => simp [hinfo, Except.map] at h
  | ok info =>
    rw [hinfo] at h
    simp only [Except.map, Except.ok.injEq] at h
    exact ⟨info, rfl, h⟩

theorem classifyPacket_of_reverse (p q : Bytes) (k : FlowKey) (hok : classifyPacket p = .ok k)
    (h : Reverse p q) : classifyPacket q = .ok k := by
  obtain ⟨info, hinfo, rfl⟩ := exists_info_of_classifyPacket p k hok
  unfold classifyPacketInfo at hinfo
  split at hinfo
  · simp at hinfo
  · cases h with
    | v4 hversion h =>
      rw [if_pos hversion] at hinfo
      have hp := wellFormed4_of_classifyIPv4 p info hversion hinfo
      have hq := h.wellFormed
      have hlen : 20 ≤ q.length := le_trans hq.header (le_trans hq.total hq.fits)
      rw [classifyPacket_v4 q hlen hq.version, classifyIPv4_reverse p q hp h, hinfo]
      rfl
    | v6 nh off hversion h =>
      rw [if_neg (by rw [hversion]; decide), if_pos hversion] at hinfo
      have hp := wellFormed6_of_classifyIPv6 p info hversion hinfo
      rw [classifyPacket_v6 q h.wellFormed.len h.wellFormed.version]
      exact classifyIPv6_reverse p q nh off info hp hinfo h

theorem exists_key_of_sameDatagram (p q : Bytes) (h : SameDatagram p q) :
    ∃ k, classifyPacket p = .ok k ∧ classifyPacket q = .ok k := by
  cases h with
  | v4 h =>
    have hp := h.left
    have hq := h.right
    rw [classifyPacket_v4 p (le_trans hp.header (le_trans hp.total hp.fits)) hp.version,
      classifyPacket_v4 q (le_trans hq.header (le_trans hq.total hq.fits)) hq.version,
      classifyIPv4_of_wellFormed p hp, classifyIPv4_of_wellFormed q hq]
    refine ⟨_, rfl, ?_⟩
    have hsrc : addr4 q 12 = addr4 p 12 := by unfold addr4; rw [h.source]
    have hdst : addr4 q 16 = addr4 p 16 := by unfold addr4; rw [h.destination]
    rw [hsrc, hdst, h.protocol, h.leftFragment, h.rightFragment]
    -- the payloads may differ, but a fragment's ports are not read
    rfl
  | v6 off off' h =>
    rw [classifyPacket_v6 p h.left.len h.left.version,
      classifyPacket_v6 q h.right.len h.right.version,
      classifyIPv6_of_wellFormed p h.left, classifyIPv6_of_wellFormed q h.right,
      extensionHeaders_of_chain h.leftChain, extensionHeaders_of_chain h.rightChain,
      extensionHeaders_fragment _ _ h.leftFits, extensionHeaders_fragment _ _ h.rightFits]
    refine ⟨_, rfl, ?_⟩
    have hsrc : addr6 q 8 = addr6 p 8 := by unfold addr6; rw [h.source]
    have hdst : addr6 q 24 = addr6 p 24 := by unfold addr6; rw [h.destination]
    simp only [Except.map]
    rw [hsrc, hdst, h.protocol]

/-- The channel a packet's flow is sent on. -/
def channelFor (packet : Bytes) (channels : List Channel) : Except FlowError Channel :=
  (classifyPacket packet).bind fun key => selectChannel key channels

/-- **Direction neutrality and fragment affinity.** The reverse of an accepted packet has the same
key, hence the same channel, and any two fragments of one datagram have the same key. -/
theorem classifyPacket_reverse_and_fragments : (∀ p q k, classifyPacket p = .ok k → Reverse p q →
      classifyPacket q = .ok k ∧ ∀ channels, channelFor q channels = channelFor p channels) ∧
    (∀ p q, SameDatagram p q → ∃ k, classifyPacket p = .ok k ∧ classifyPacket q = .ok k) := by
  refine ⟨fun p q k hok hrev => ?_, exists_key_of_sameDatagram⟩
  have hq := classifyPacket_of_reverse p q k hok hrev
  refine ⟨hq, fun channels => ?_⟩
  unfold channelFor
  rw [hq, hok]

/-- A TCP packet from 100.80.0.10:30000 to 100.80.0.20:443. -/
def tcpPacket : Bytes :=
  [0x45, 0, 0, 24, 0, 0, 0, 0, 64, 6, 0, 0, 100, 80, 0, 10, 100, 80, 0, 20, 117, 48, 1, 187]

/-- Its answer, with one byte of data. -/
def tcpAnswer : Bytes :=
  [0x45, 0, 0, 25, 0, 0, 0, 0, 64, 6, 0, 0, 100, 80, 0, 20, 100, 80, 0, 10, 1, 187, 117, 48, 7]

theorem tcpAnswer_reverses : Reverse tcpPacket tcpAnswer := by
  refine .v4 (by decide) ⟨⟨by decide, by decide, by decide, by decide⟩, by decide, by decide,
    by decide, by decide, by decide, by decide, fun _ => ⟨?_, ?_, by decide, ?_⟩⟩
  · exact fun _ => by decide
  · exact fun _ _ => by decide
  · exact fun h => absurd h (by decide)

/-- The two directions of one TCP connection, and one packet of it cut in two. -/
theorem tcpAnswer_key : (∃ k, classifyPacket tcpPacket = .ok k ∧ classifyPacket tcpAnswer = .ok k) ∧
    Reverse tcpPacket tcpAnswer ∧ ∃ k, classifyPacket (tcpPacket.set 6 0x20) = .ok k ∧
      classifyPacket (tcpAnswer.set 7 1 |>.set 12 100 |>.set 15 10 |>.set 19 20) = .ok k := by
  refine ⟨⟨_, rfl, (classifyPacket_reverse_and_fragments.1 tcpPacket tcpAnswer _ rfl
    tcpAnswer_reverses).1⟩, tcpAnswer_reverses, ?_⟩
  refine classifyPacket_reverse_and_fragments.2 _ _ (.v4 ⟨⟨?_, ?_, ?_, ?_⟩, ⟨?_, ?_, ?_, ?_⟩,
    ?_, ?_, ?_, ?_, ?_⟩)
  all_goals decide

end Multipath
