import Mathlib.Data.Nat.Bitwise
import Rmnet.Lib.Field

/-!
# QMAP headers

The headers of `rmnet_map.h` as they lie in memory on a little-endian CPU: bit fields are allocated from
the low bit of a byte, lengths are big-endian.  A header is parsed from the bytes at its address.
-/

namespace Rmnet

open Field

abbrev Bytes := List UInt8

/-! ### `port->data_format` -/

/-- `RMNET_FLAGS_INGRESS_MAP_COMMANDS`. -/
def ingressMapCommands (dataFormat : ℕ) : Bool := dataFormat.testBit 1

/-- `RMNET_FLAGS_INGRESS_MAP_CKSUMV4`. -/
def ingressMapCksumv4 (dataFormat : ℕ) : Bool := dataFormat.testBit 2

/-- `RMNET_FLAGS_INGRESS_COALESCE`. -/
def ingressCoalesce (dataFormat : ℕ) : Bool := dataFormat.testBit 4

/-- `RMNET_FLAGS_INGRESS_MAP_CKSUMV5`. -/
def ingressMapCksumv5 (dataFormat : ℕ) : Bool := dataFormat.testBit 5

/-- `RMNET_INGRESS_FORMAT_DL_MARKER`: version 1 or version 2. -/
def ingressDlMarker (dataFormat : ℕ) : Bool := dataFormat.testBit 29 || dataFormat.testBit 30

/-- `RMNET_INGRESS_FORMAT_DL_MARKER_V2`. -/
def ingressDlMarkerV2 (dataFormat : ℕ) : Bool := dataFormat.testBit 29

/-! ### Headers -/

/-- `sizeof(struct rmnet_map_header)`. -/
def mapHeaderSize : ℕ := 4

/-- `sizeof(struct rmnet_map_v5_csum_header)`. -/
def v5CsumHeaderSize : ℕ := 4

/-- `sizeof(struct rmnet_map_v5_coal_header)`. -/
def v5CoalHeaderSize : ℕ := 28

/-- `sizeof(struct rmnet_map_dl_csum_trailer)`. -/
def dlCsumTrailerSize : ℕ := 8

/-- `RMNET_MAX_LOGICAL_EP`. -/
def maxLogicalEp : ℕ := 255

/-- `RMNET_MAP_HEADER_TYPE_COALESCING`. -/
def headerTypeCoalescing : ℕ := 1

/-- `RMNET_MAP_HEADER_TYPE_CSUM_OFFLOAD`. -/
def headerTypeCsumOffload : ℕ := 2

/-- `RMNET_MAP_V5_MAX_NLOS`. -/
def v5MaxNlos : ℕ := 6

/-- `RMNET_MAP_V5_MAX_PACKETS`. -/
def v5MaxPackets : ℕ := 48

/-- `IPPROTO_TCP`. -/
def ipprotoTcp : ℕ := 6

/-- `IPPROTO_UDP`. -/
def ipprotoUdp : ℕ := 17

/-- `struct rmnet_map_header`. -/
structure MapHeader where
  padLen : ℕ
  nextHdr : Bool
  cdBit : Bool
  muxId : ℕ
  pktLen : ℕ
  deriving DecidableEq, Repr

/-- A QMAP header at the front of some bytes. -/
def MapHeader.parse (b : Bytes) : MapHeader :=
  { padLen := byteAt b 0 % 64
    nextHdr := (byteAt b 0).testBit 6
    cdBit := (byteAt b 0).testBit 7
    muxId := byteAt b 1
    pktLen := be16At b 2 }

/-- `struct rmnet_map_v5_csum_header`. -/
structure V5CsumHeader where
  headerType : ℕ
  csumValidRequired : Bool
  deriving DecidableEq, Repr

def V5CsumHeader.parse (b : Bytes) : V5CsumHeader :=
  { headerType := byteAt b 0 / 2
    csumValidRequired := (byteAt b 1).testBit 7 }

/-- `struct rmnet_map_v5_nl_pair`. -/
structure NlPair where
  pktLen : ℕ
  csumErrorBitmap : ℕ
  numPackets : ℕ
  deriving DecidableEq, Repr

/-- `struct rmnet_map_v5_coal_header`. -/
structure V5CoalHeader where
  headerType : ℕ
  numNlos : ℕ
  csumValid : Bool
  closeType : ℕ
  closeValue : ℕ
  virtualChannelId : ℕ
  nlPairs : List NlPair
  deriving DecidableEq, Repr

/-- The pair at an offset. -/
def NlPair.parse (b : Bytes) (i : ℕ) : NlPair :=
  { pktLen := be16At b i, csumErrorBitmap := byteAt b (i + 2), numPackets := byteAt b (i + 3) }

def V5CoalHeader.parse (b : Bytes) : V5CoalHeader :=
  { headerType := byteAt b 0 / 2
    numNlos := byteAt b 1 / 16 % 8
    csumValid := (byteAt b 1).testBit 7
    closeType := byteAt b 2 % 16
    closeValue := byteAt b 2 / 16
    virtualChannelId := byteAt b 3 / 16
    nlPairs := (List.range v5MaxNlos).map fun i => NlPair.parse b (4 + 4 * i) }

@[simp] theorem V5CoalHeader.parse_nlPairs_length (b : Bytes) :
    (V5CoalHeader.parse b).nlPairs.length = v5MaxNlos := by
  simp [V5CoalHeader.parse]

/-! ### Reasons for closing a coalesced frame -/

/-- `RMNET_MAP_COAL_CLOSE_HW`. -/
def coalCloseHw : ℕ := 3

/-- `RMNET_MAP_COAL_CLOSE_COAL`. -/
def coalCloseCoal : ℕ := 4

/-- `rmnet_map_v5_csum_buggy`.  The three close values are the packet limit, the byte limit and the
time limit. -/
def rmnetMapV5CsumBuggy (coalHdr : V5CoalHeader) : Bool :=
  if coalHdr.numNlos ≠ 1 ∨ (coalHdr.nlPairs.head?.map NlPair.numPackets) ≠ some 1 then false
  else if coalHdr.closeType = coalCloseCoal then true
  else if coalHdr.closeType = coalCloseHw then
    coalHdr.closeValue = 1 || coalHdr.closeValue = 2 || coalHdr.closeValue = 3
  else false

end Rmnet
