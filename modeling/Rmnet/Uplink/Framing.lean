import Rmnet.Uplink.Egress

/-!
# Frames that describe themselves

A QMAP frame is read from its front: the header, the checksum header that `next_hdr` announces, and as many bytes of
packet as the header says.  `rmnet_map_egress_handler` adds the checksum header for checksum offload and for
priorities, and `rmnet_map_add_map_header` announces it for checksum offload.

* `qmapParse_iff` — when a frame of headers and packet is read as it was built;
* `frame_described_iff` — what the handler builds is read back exactly when the checksum header is announced or absent.
-/

namespace Rmnet

open Field

/-! ### Reading a frame -/

/-- Where the packet of a frame starts. -/
def MapHeader.packetStart (hdr : MapHeader) : ℕ :=
  if hdr.nextHdr then mapHeaderSize + v5CsumHeaderSize else mapHeaderSize

/-- A frame at the front of some bytes: its packet, and what lies behind the frame. -/
def qmapParse (b : Bytes) : Option (Bytes × Bytes) :=
  if b.length < mapHeaderSize then none
  else
    let hdr := MapHeader.parse b
    (readBytes b hdr.packetStart hdr.pktLen).map fun packet => (packet, b.drop (hdr.packetStart + hdr.pktLen))

/-- Headers in front of a packet of the right length are read back as that packet, with nothing behind it, exactly
when the packet starts behind them. -/
theorem qmapParse_iff {headers packet : Bytes} (hsize : mapHeaderSize ≤ headers.length)
    (hlen : (MapHeader.parse (headers ++ packet)).pktLen = packet.length) :
    qmapParse (headers ++ packet) = some (packet, [])
      ↔ (MapHeader.parse (headers ++ packet)).packetStart = headers.length := by
  unfold qmapParse
  rw [if_neg (by rw [List.length_append]; omega)]
  simp only [hlen]
  refine ⟨fun h => ?_, fun h => ?_⟩
  · obtain ⟨read, hread, heq⟩ := Option.map_eq_some_iff.mp h
    obtain ⟨hin, -⟩ := readBytes_eq_some hread
    -- nothing is left behind the packet
    have hrest := List.drop_eq_nil_iff.mp (congrArg Prod.snd heq)
    rw [List.length_append] at hin hrest
    omega
  · have hall : (headers ++ packet).drop (headers.length + packet.length) = [] :=
      List.drop_eq_nil_of_le (by rw [List.length_append])
    rw [h, readBytes_of_le (by rw [List.length_append]), List.drop_left, List.take_length, hall]
    rfl

/-- The headers of a frame are those that the QMAP header announces. -/
theorem packetStart_egressHeaders {dataFormat : ℕ} (hv4 : egressMapCksumv4 dataFormat = false) (muxId : ℕ) (t : TxSkb)
    (hlen : t.skb.len ≤ 65535) (rest : Bytes) :
    (MapHeader.parse (egressHeaders dataFormat muxId t ++ rest)).packetStart = (egressHeaders dataFormat muxId t).length
      ↔ egressMapCksumv5 dataFormat = true ∨ egressPriority dataFormat = false := by
  rw [parse_egressHeaders dataFormat muxId t hlen, egressHeaders_length muxId t hv4, MapHeader.packetStart,
    additionalHeaderLen, hv4]
  cases egressMapCksumv5 dataFormat with
  | true => simp
  | false =>
    cases egressPriority dataFormat with
    | true => simp [v5CsumHeaderSize]
    | false => simp

/-! ### What the handler builds -/

/-- **Every uplink frame describes itself, unless priorities are sent without checksum offload.**  For every format
without checksum headers of version 4, and every packet of 1 to 65535 bytes: the handler gives up for want of memory,
or it builds a frame that it aggregates or transmits.  Reading the frame gives the packet and leaves nothing exactly
when the format has checksum offload or no priorities. -/
theorem frame_described_iff (v4Csum : TxSkb → TxSkb) (port : UlPort) (hv4 : egressMapCksumv4 port.dataFormat = false)
    (muxId : ℕ) (t : TxSkb) (h : t.skb.Coherent) (hlen : 1 ≤ t.skb.len ∧ t.skb.len ≤ 65535) (expand : Bool)
    (env : ℕ → TxEnv) :
    ((t.headroom < mapHeaderSize + additionalHeaderLen port.dataFormat ∧ expand = false) ∧
      rmnetMapEgressHandler v4Csum port muxId t expand env = .ok (port, .enomem)) ∨
    ∃ frame : SkBuff,
      rmnetMapEgressHandler v4Csum port muxId t expand env
        = (if port.dataFormat.testBit egressFormatAggregation && !rmnetMapTxAggSkip t 0 then
            (rmnetMapTxAggregate frame env 2 0 port).map fun r => (r.1, .inProgress)
          else .ok (port, .transmit frame)) ∧
      frame.Coherent ∧
      (qmapParse frame.bytes = some (t.skb.bytes, [])
        ↔ egressMapCksumv5 port.dataFormat = true ∨ egressPriority port.dataFormat = false) := by
  by_cases hroom : t.headroom < mapHeaderSize + additionalHeaderLen port.dataFormat ∧ expand = false
  · exact .inl ⟨hroom, rmnetMapEgressHandler_enomem v4Csum port muxId t expand env hroom⟩
  · obtain ⟨f, hf⟩ := rmnetMapEgressHandler_frame v4Csum port muxId t expand env hv4 (by omega) hroom
    have hsize := egressHeaders_length muxId t hv4
    have hsmall := additionalHeaderLen_le port.dataFormat
    rw [mapHeaderSize] at hsize
    refine .inr ⟨_, hf, framed_coherent h f (by omega), ?_⟩
    have hpkt : (MapHeader.parse (egressHeaders port.dataFormat muxId t ++ t.skb.bytes)).pktLen
        = t.skb.bytes.length := by
      rw [parse_egressHeaders port.dataFormat muxId t hlen.2]
      exact h.len_eq
    rw [framed_bytes, qmapParse_iff (by rw [mapHeaderSize]; omega) hpkt]
    exact packetStart_egressHeaders hv4 muxId t hlen.2 t.skb.bytes

/-- Three bytes to send, of no protocol that the driver knows and with room for headers. -/
def threeBytes : TxSkb := ⟨{ linear := [1, 2, 3], len := 3 }, .other, 16, 0⟩

/-- Checksum offload and priorities together: the frame is read back. -/
theorem frame_described_offload :
    ∃ frame : SkBuff,
      rmnetMapEgressHandler id (rmnetMapTxAggregateInit (2 ^ 28 + 2 ^ 6)) 1 threeBytes true (fun _ => calmEnv)
        = .ok (rmnetMapTxAggregateInit (2 ^ 28 + 2 ^ 6), .transmit frame) ∧
      qmapParse frame.bytes = some ([1, 2, 3], []) := by
  rcases frame_described_iff id (rmnetMapTxAggregateInit (2 ^ 28 + 2 ^ 6)) (by decide) 1 threeBytes
    ⟨rfl, rfl, by decide⟩ (by decide) true fun _ => calmEnv with ⟨hroom, -⟩ | ⟨frame, heq, -, hiff⟩
  · exact absurd hroom (by decide)
  · exact ⟨frame, heq, hiff.mpr (.inl (by decide))⟩

/-- Priorities alone: the checksum header in front of the packet is not announced, and a reader takes it for the
packet. -/
theorem frame_not_described :
    egressMapCksumv4 (rmnetMapTxAggregateInit (2 ^ 28)).dataFormat = false ∧ threeBytes.skb.Coherent ∧
    ∃ frame : SkBuff,
      rmnetMapEgressHandler id (rmnetMapTxAggregateInit (2 ^ 28)) 1 threeBytes true (fun _ => calmEnv)
        = .ok (rmnetMapTxAggregateInit (2 ^ 28), .transmit frame) ∧
      frame.bytes = [0, 1, 0, 3, 4, 0, 0, 0, 1, 2, 3] ∧
      qmapParse frame.bytes = some ([4, 0, 0], [0, 1, 2, 3]) ∧
      qmapParse frame.bytes ≠ some (threeBytes.skb.bytes, []) :=
  ⟨by decide, ⟨rfl, rfl, by decide⟩, _, rfl, by decide, by decide, by decide⟩

end Rmnet
