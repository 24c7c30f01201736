/-
# Flow keys of overlay packets

Model of `client/internal/anonymous/multipath/flow.go`: the classification of a plaintext IPv4 or
IPv6 packet into a direction-neutral flow key, and the choice of a transport channel for a flow by
rendezvous hashing.
-/
import AnonBird.NetIP

open GoStrings NetIP List

namespace Multipath

/-! ## Data model -/

/-- The errors of the package: `ErrShortPacket`, `ErrUnsupportedIP`,
`ErrNoHealthyChannel`, and the ones built from a text. -/
inductive FlowError where
  | shortPacket
  | unsupportedIP
  | noHealthyChannel
  | text (msg : String)
  deriving DecidableEq, Repr

/-- The number of ICMP. -/
def protocolICMPv4 : UInt8 := 1
/-- The number of TCP. -/
def protocolTCP : UInt8 := 6
/-- The number of UDP. -/
def protocolUDP : UInt8 := 17
/-- The number of ICMPv6. -/
def protocolICMPv6 : UInt8 := 58

/-- The key of an inner overlay flow, read before WireGuard encryption. -/
structure FlowKey where
  source : Addr
  destination : Addr
  protocol : UInt8
  sourcePort : UInt16
  destPort : UInt16
  fragmented : Bool
  deriving DecidableEq, Repr

/-- The flow key of a packet together with its endpoints in packet order. -/
structure PacketInfo where
  flow : FlowKey
  source : Addr
  destination : Addr
  deriving DecidableEq, Repr

/-- One transport channel that can carry a flow. -/
structure Channel where
  id : Bytes
  healthy : Bool
  deriving DecidableEq, Repr

/-! ## Ports and the canonical key -/

/-- The two ports of a TCP or UDP payload, the identifier of an ICMP echo in both
places, and zeros for everything else. -/
def ports (proto : UInt8) (payload : Bytes) (fragmented : Bool) : UInt16 × UInt16 :=
  if fragmented then (0, 0)
  else if proto = protocolTCP ∨ proto = protocolUDP then
    if payload.length < 4 then (0, 0)
    else (uint16At payload 0, uint16At payload 2)
  else if proto = protocolICMPv4 ∨ proto = protocolICMPv6 then
    if payload.length < 6 then (0, 0)
    else
      let icmpType := byteAt payload 0
      if proto = protocolICMPv4 ∧ (icmpType = 0 ∨ icmpType = 8) then
        (uint16At payload 4, uint16At payload 4)
      else if proto = protocolICMPv6 ∧ (icmpType = 128 ∨ icmpType = 129) then
        (uint16At payload 4, uint16At payload 4)
      else (0, 0)
  else (0, 0)

/-- Endpoints are ordered by address and then by port. -/
def compareEndpoint (a : Addr) (aPort : UInt16) (b : Addr) (bPort : UInt16) : Ordering :=
  (a.cmp b).then (compare aPort bPort)

/-- The key of a packet, with the smaller endpoint in the source place. -/
def canonicalFlow (src dst : Addr) (proto : UInt8) (payload : Bytes)
    (fragmented : Bool) : FlowKey :=
  let srcPort := (ports proto payload fragmented).1
  let dstPort := (ports proto payload fragmented).2
  if compareEndpoint src.unmap srcPort dst.unmap dstPort = .gt then
    ⟨dst.unmap, src.unmap, proto, dstPort, srcPort, fragmented⟩
  else
    ⟨src.unmap, dst.unmap, proto, srcPort, dstPort, fragmented⟩

/-! ## The two header parsers -/

/-- What an IPv4 packet is part of. -/
def classifyIPv4 (packet : Bytes) : Except FlowError PacketInfo :=
  if packet.length < 20 then .error .shortPacket
  else
    let headerLen := (byteAt packet 0 &&& 0x0f).toNat * 4
    if headerLen < 20 ∨ packet.length < headerLen then .error .shortPacket
    else
      let totalLen := (uint16At packet 2).toNat
      if totalLen = 0 ∨ totalLen > packet.length ∨ totalLen < headerLen then
        .error .shortPacket
      else
        -- bytes behind the declared end are padding
        let packet := if totalLen < packet.length then packet.take totalLen else packet
        match Addr.fromSlice (slice packet 12 16) with
        | none => .error (.text "parse IPv4 source address")
        | some src =>
          match Addr.fromSlice (slice packet 16 20) with
          | none => .error (.text "parse IPv4 destination address")
          | some dst =>
            let src := src.unmap
            let dst := dst.unmap
            let proto := byteAt packet 9
            let fragmented : Bool := uint16At packet 6 &&& 0x3fff ≠ 0
            .ok ⟨canonicalFlow src dst proto (packet.drop headerLen) fragmented, src, dst⟩

/-- The loop of `classifyIPv6` over the extension headers; it ends with the protocol, the payload
and the fragment flag. -/
def extensionHeaders (packet : Bytes) (nextHeader : UInt8) (offset : ℕ) :
    Except FlowError (UInt8 × Bytes × Bool) :=
  if nextHeader = 0 ∨ nextHeader = 43 ∨ nextHeader = 60 then
    if packet.length < offset + 2 then .error .shortPacket
    else if packet.length < offset + ((byteAt packet (offset + 1)).toNat + 1) * 8 then
      .error .shortPacket
    else
      extensionHeaders packet (byteAt packet offset)
        (offset + ((byteAt packet (offset + 1)).toNat + 1) * 8)
  else if nextHeader = 44 then
    -- the walk ends at a Fragment header, whatever stands behind it
    if packet.length < offset + 8 then .error .shortPacket
    else .ok (byteAt packet offset, [], true)
  else if nextHeader = 51 then
    if packet.length < offset + 2 then .error .shortPacket
    else if packet.length < offset + ((byteAt packet (offset + 1)).toNat + 2) * 4 then
      .error .shortPacket
    else
      extensionHeaders packet (byteAt packet offset)
        (offset + ((byteAt packet (offset + 1)).toNat + 2) * 4)
  else .ok (nextHeader, packet.drop offset, false)
termination_by packet.length - offset
decreasing_by all_goals omega

/-- What an IPv6 packet is part of. -/
def classifyIPv6 (packet : Bytes) : Except FlowError PacketInfo :=
  if packet.length < 40 then .error .shortPacket
  else
    let payloadLen := (uint16At packet 4).toNat
    if payloadLen ≠ 0 ∧ 40 + payloadLen > packet.length then .error .shortPacket
    else
      let packet := if payloadLen ≠ 0 then packet.take (40 + payloadLen) else packet
      match Addr.fromSlice (slice packet 8 24) with
      | none => .error (.text "parse IPv6 source address")
      | some src =>
        match Addr.fromSlice (slice packet 24 40) with
        | none => .error (.text "parse IPv6 destination address")
        | some dst =>
          let src := src.unmap
          let dst := dst.unmap
          match extensionHeaders packet (byteAt packet 6) 40 with
          | .error e => .error e
          | .ok (proto, payload, fragmented) =>
            .ok ⟨canonicalFlow src dst proto payload fragmented, src, dst⟩

/-- `ClassifyPacketInfo`: the version nibble picks the parser. -/
def classifyPacketInfo (packet : Bytes) : Except FlowError PacketInfo :=
  if packet.length = 0 then .error .shortPacket
  else if byteAt packet 0 >>> 4 = 4 then classifyIPv4 packet
  else if byteAt packet 0 >>> 4 = 6 then classifyIPv6 packet
  else .error .unsupportedIP

/-- `ClassifyPacket`: only the key of `ClassifyPacketInfo`. -/
def classifyPacket (packet : Bytes) : Except FlowError FlowKey :=
  (classifyPacketInfo packet).map PacketInfo.flow

/-! ## Padding -/

/-- The length that the header declares; a zero there leaves the end open. -/
def declaredLen (packet : Bytes) : ℕ :=
  if byteAt packet 0 >>> 4 = 4 then
    if (uint16At packet 2).toNat = 0 then packet.length else (uint16At packet 2).toNat
  else if (uint16At packet 4).toNat = 0 then packet.length else 40 + (uint16At packet 4).toNat

section

variable {p : Bytes} {n : ℕ} (hlen : n ≤ p.length)

include hlen

theorem classifyIPv4_take (hn : (uint16At p 2).toNat = n) :
    classifyIPv4 (p.take n) = classifyIPv4 p := by
  obtain h20 | h20 := lt_or_ge n 20
  · -- no room for a header
    rw [classifyIPv4, if_pos (by rw [length_take]; omega)]
    simp only [classifyIPv4]
    split_ifs <;> first | rfl | omega
  · have hbody : (if n < p.length then p.take n else p) = p.take n :=
      ite_eq_left_iff.mpr fun h => (take_of_length_le (not_lt.mp h)).symm
    simp only [classifyIPv4, byteAt_take p n 0 (by omega), uint16At_take p n 2 (by omega), hn,
      hbody, length_take, min_eq_left hlen, lt_irrefl, false_or, if_false]
    split_ifs <;> first | rfl | omega

theorem classifyIPv6_take (h0 : (uint16At p 4).toNat ≠ 0) (hn : 40 + (uint16At p 4).toNat = n) :
    classifyIPv6 (p.take n) = classifyIPv6 p := by
  simp only [classifyIPv6, uint16At_take p n 4 (by omega), length_take, min_eq_left hlen, hn,
    take_take, min_self]
  split_ifs <;> first | rfl | omega

end

/-- **Padding does not count.**  A packet is classified as its declared part is. -/
theorem classifyPacketInfo_take_declaredLen (p : Bytes) :
    classifyPacketInfo (p.take (declaredLen p)) = classifyPacketInfo p := by
  obtain hlen | hlen := le_or_gt p.length (declaredLen p)
  · rw [take_of_length_le hlen]
  have hpos : 0 < declaredLen p := by
    unfold declaredLen at hlen ⊢
    grind
  unfold classifyPacketInfo
  rw [byteAt_take p _ 0 hpos, length_take, min_eq_left hlen.le, if_neg hpos.ne',
    if_neg (hpos.trans hlen).ne']
  unfold declaredLen at hlen ⊢
  split_ifs at hlen ⊢ with h4 h0 h6 h0
  · exact absurd hlen (lt_irrefl _)
  · exact classifyIPv4_take hlen.le rfl
  · exact absurd hlen (lt_irrefl _)
  · exact classifyIPv6_take hlen.le h0 rfl
  · rfl
  · rfl

/-! ## Channel selection -/

/-- The 64-bit FNV-1a hash of `hash/fnv`. -/
def fnv64a (s : Bytes) : UInt64 :=
  s.foldl (fun h b => (h ^^^ b.toUInt64) * 1099511628211) 14695981039346656037

/-- The bytes hashed for the scalar fields of a key; the last three stay zero. -/
def FlowKey.scalar (k : FlowKey) : Bytes :=
  [k.protocol, (k.sourcePort >>> 8).toUInt8, k.sourcePort.toUInt8,
    (k.destPort >>> 8).toUInt8, k.destPort.toUInt8,
    if k.fragmented then 1 else 0, 0, 0, 0]

/-- `FlowKey.score`: the rendezvous weight of a channel for this flow. -/
def FlowKey.score (k : FlowKey) (channelID : Bytes) : UInt64 :=
  fnv64a (k.source.as16 ++ k.destination.as16 ++ k.scalar ++ channelID)

/-- One turn of the loop of `SelectChannel`: the best channel so far with its score. -/
def selectStep (key : FlowKey) (best : Option (Channel × UInt64)) (channel : Channel) :
    Option (Channel × UInt64) :=
  if !channel.healthy || channel.id = [] then best
  else
    match best with
    | none => some (channel, key.score channel.id)
    | some (selected, score) =>
      if key.score channel.id > score then some (channel, key.score channel.id)
      else some (selected, score)

/-- `SelectChannel`: the healthy named channel of the highest score, the first of
them on a tie. -/
def selectChannel (key : FlowKey) (channels : List Channel) : Except FlowError Channel :=
  match channels.foldl (selectStep key) none with
  | none => .error .noHealthyChannel
  | some (selected, _) => .ok selected

/-! ## Minimal disruption -/

/-- A channel that `SelectChannel` takes into account. -/
def Channel.eligible (c : Channel) : Bool := c.healthy && c.id ≠ []

/-- A channel is taken out of use. -/
def Channel.markUnhealthy (c : Channel) : Channel := { c with healthy := false }

variable (key : FlowKey)

/-- The score of a channel for a flow, as a number. -/
def FlowKey.weight (c : Channel) : ℕ := (key.score c.id).toNat

open Channel

/-- The first eligible channel of the highest score. -/
def FlowKey.best (channels : List Channel) : Option Channel :=
  (channels.filter eligible).argmax key.weight

open FlowKey

/-- What the loop of `SelectChannel` finds. -/
theorem selectChannel_eq (channels : List Channel) : selectChannel key channels =
    (key.best channels).elim (.error .noHealthyChannel) .ok := by
  have hloop : channels.foldl (selectStep key) none =
      (key.best channels).map fun c => (c, key.score c.id) := by
    induction channels using reverseRecOn with
    | nil => rfl
    | append_singleton channels c ih =>
      rw [foldl_concat, ih, best, best, filter_append, filter_singleton,
        selectStep.eq_def]
      cases hc : c.eligible with
      | false =>
        rw [if_pos (by simpa [eligible, or_iff_not_imp_left] using hc), cond_false,
          append_nil]
      | true =>
        rw [if_neg (by simpa [eligible] using hc), cond_true, argmax_concat]
        cases (channels.filter eligible).argmax key.weight with
        | none => rfl
        | some best =>
          show (if key.score best.id < key.score c.id then _ else _) =
            Option.map _ (if key.score best.id < key.score c.id then _ else _)
          split <;> rfl
  rw [selectChannel, hloop]
  cases key.best channels <;> rfl

variable {key} {channels : List Channel} {c d : Channel}

theorem best_cons_of_eligible (hd : d.eligible) : key.best (d :: channels) =
    (key.best channels).elim (some d) fun c =>
      if key.weight d < key.weight c then some c else some d := by
  rw [best, filter_cons_of_pos hd, argmax_cons]
  unfold best
  cases (channels.filter eligible).argmax key.weight <;> rfl

theorem best_cons_of_not (hd : ¬ d.eligible) : key.best (d :: channels) = key.best channels := by
  rw [best, filter_cons_of_neg hd, best]

theorem weight_le_of_best (h : key.best channels = some c) (hd : d ∈ channels) (hel : d.eligible) :
    key.weight d ≤ key.weight c :=
  le_of_mem_argmax (mem_filter.mpr ⟨hd, hel⟩) h

theorem mem_of_best (h : key.best channels = some c) : c ∈ channels ∧ c.eligible :=
  mem_filter.mp (argmax_mem h)

theorem best_eq_none_iff : key.best channels = none ↔ ∀ c ∈ channels, c.healthy → c.id = [] := by
  rw [best, argmax_eq_none, filter_eq_nil_iff]
  simp [eligible]

theorem best_cons_eq_self (hd : d.eligible)
    (h : ∀ c ∈ channels, c.eligible → key.weight c ≤ key.weight d) :
    key.best (d :: channels) = some d := by
  rw [best_cons_of_eligible hd]
  cases hbest : key.best channels with
  | none => rfl
  | some c =>
    obtain ⟨hc, hel⟩ := mem_of_best hbest
    exact if_neg (not_lt.mpr (h c hc hel))

theorem best_cons_cases (d : Channel) (channels : List Channel) :
    key.best (d :: channels) = key.best channels ∨ key.best (d :: channels) = some d := by
  by_cases hd : d.eligible
  · rw [best_cons_of_eligible hd]
    cases key.best channels with
    | none => exact .inr rfl
    | some c => exact (em (key.weight d < key.weight c)).imp (if_pos ·) (if_neg ·)
  · exact .inl (best_cons_of_not hd)

theorem best_cons_congr {channels' : List Channel} (h : key.best channels = key.best channels') :
    key.best (d :: channels) = key.best (d :: channels') := by
  by_cases hd : d.eligible
  · rw [best_cons_of_eligible hd, best_cons_of_eligible hd, h]
  · rw [best_cons_of_not hd, best_cons_of_not hd, h]

theorem best_eraseIdx (h : key.best channels = some c) {i : ℕ} (hi : i ≠ channels.idxOf c) :
    key.best (channels.eraseIdx i) = some c := by
  induction channels generalizing i with
  | nil => exact h
  | cons d channels ih =>
    by_cases hd : d = c
    · subst hd
      rw [idxOf_cons_self] at hi
      obtain ⟨i, rfl⟩ := Nat.exists_eq_succ_of_ne_zero hi
      have hel := (mem_of_best h).2
      refine best_cons_eq_self hel fun e he hel' => ?_
      exact weight_le_of_best h (mem_cons_of_mem _ (mem_of_mem_eraseIdx he)) hel'
    · have hrest : key.best channels = some c := by
        rcases best_cons_cases d channels with hsame | hself
        · rw [← hsame, h]
        · rw [h] at hself
          exact absurd (Option.some.inj hself).symm hd
      cases i with
      | zero => exact hrest
      | succ i =>
        rw [idxOf_cons_ne _ hd] at hi
        rw [eraseIdx_cons_succ, ← h]
        exact best_cons_congr ((ih hrest (by omega)).trans hrest.symm)

/-- A channel that is marked unhealthy is no more looked at than one that is removed. -/
theorem best_modify (i : ℕ) :
    key.best (channels.modify i markUnhealthy) = key.best (channels.eraseIdx i) := by
  induction channels generalizing i with
  | nil => simp
  | cons d channels ih =>
    cases i with
    | zero => exact best_cons_of_not (by simp [eligible, markUnhealthy])
    | succ i => exact best_cons_congr (ih i)

/-- Without the new channel the choice is as before, unless it is the new one. -/
theorem best_insertIdx {i : ℕ} (hi : i ≤ channels.length) :
    key.best (channels.insertIdx i d) = key.best channels ∨
      key.best (channels.insertIdx i d) = some d := by
  cases hbest : key.best (channels.insertIdx i d) with
  | none =>
    rw [best_eq_none_iff] at hbest
    exact .inl (best_eq_none_iff.mpr fun c hc => hbest c ((mem_insertIdx hi).mpr (.inr hc))).symm
  | some c =>
    by_cases hc : i = (channels.insertIdx i d).idxOf c
    · have hlt := idxOf_lt_length_iff.mpr (mem_of_best hbest).1
      have hget := getElem_idxOf hlt
      simp only [← hc, getElem_insertIdx_self] at hget
      exact .inr (congrArg some hget.symm)
    · have hrest := best_eraseIdx hbest hc
      rw [eraseIdx_insertIdx_self] at hrest
      exact .inl hrest.symm

/-- **Minimal disruption.**  The choice survives every other occurrence, a new channel changes it to
itself at most, and it fails only for want of a healthy named channel. -/
theorem selection_disrupted_minimally (key : FlowKey) (channels : List Channel) :
    (∀ c, selectChannel key channels = .ok c → ∀ i ≠ channels.idxOf c,
      selectChannel key (channels.eraseIdx i) = .ok c ∧
        selectChannel key (channels.modify i markUnhealthy) = .ok c) ∧
    (∀ i ≤ channels.length, ∀ d : Channel, d.healthy →
      selectChannel key (channels.insertIdx i d) = selectChannel key channels ∨
        selectChannel key (channels.insertIdx i d) = .ok d) ∧
    ((∃ e, selectChannel key channels = .error e) ↔ ∀ c ∈ channels, c.healthy → c.id = []) := by
  refine ⟨fun c hc i hi => ?_, fun i hi d _ => ?_, ?_⟩
  · have hbest : key.best channels = some c := by
      rw [selectChannel_eq] at hc
      cases h : key.best channels with
      | none => simp [h] at hc
      | some c' => simpa [h] using hc
    rw [selectChannel_eq, selectChannel_eq, best_modify, best_eraseIdx hbest hi]
    exact ⟨rfl, rfl⟩
  · rw [selectChannel_eq, selectChannel_eq]
    rcases best_insertIdx hi with hsame | hnew
    · exact .inl (by rw [hsame])
    · exact .inr (by rw [hnew]; rfl)
  · rw [selectChannel_eq]
    rw [← @best_eq_none_iff key channels]
    cases key.best channels <;> simp

end Multipath
