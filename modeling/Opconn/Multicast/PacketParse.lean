import Mathlib.Data.List.GetD
import Opconn.Lib.Buffer
import Opconn.Multicast.System

/-!
# What is read of a received packet

`mcInput` copies a packet into a buffer of its own and takes the addresses, the VLAN and the
IGMP message out of it by fixed offsets and the length field of the IP header.  The number of
bytes that were received is not looked at on the way, and a header that is neither five nor
six words long leaves the pointer to the message NULL.
-/

namespace Opconn.Multicast

open Buffer

/-! ### The parser -/

/-- Bytes as a number, the highest first. -/
def ofBytes (bytes : List UInt8) : Nat := bytes.foldl (fun n b => n * 256 + b.toNat) 0

/-- `VLAN_DEFAULT_STPID` and `VLAN_DEFAULT_CTPID`. -/
def isTpid (type : Nat) : Bool := decide (type = 0x88a8) || decide (type = 0x8100)

def IgmpType.ofByte (type : Nat) : IgmpType :=
  if type = 0x11 then .generalQuery
  else if type = 0x12 then .v1Report
  else if type = 0x16 then .v2Report
  else if type = 0x17 then .v2Leave
  else .other

/-- The Ethernet header, and where the IP header is. -/
structure EthHeader where
  daMac : Mac
  saMac : Mac
  cVlan : Nat
  ipv4Header : Nat

def parseEth (rd : Nat → Option UInt8) : Option EthHeader :=
  (read rd 0 6).bind fun dest =>
  (read rd 6 6).bind fun src =>
  (read rd 12 2).bind fun type =>
  if isTpid (ofBytes type) then
    (read rd 14 2).map fun tci =>
      ⟨dest.map (·.toNat), src.map (·.toNat), ofBytes tci % 2 ^ 12, 18⟩
  else some ⟨dest.map (·.toNat), src.map (·.toNat), 0, 14⟩

structure IpHeader where
  destIp : Nat
  srcIp : Nat
  ihl : Nat

def parseIp (rd : Nat → Option UInt8) (ipv4Header : Nat) : Option IpHeader :=
  (read rd (ipv4Header + 16) 4).bind fun destAddr =>
  (read rd (ipv4Header + 12) 4).bind fun srcAddr =>
  (read rd ipv4Header 1).map fun versionIhl =>
    ⟨ofBytes destAddr, ofBytes srcAddr, ofBytes versionIhl % 16⟩

/-- `igmpMsg`; it is NULL for other lengths of the IP header. -/
def igmpPointer (ipv4Header ihl : Nat) : Option Nat :=
  if ihl = 5 then some (ipv4Header + 20)
  else if ihl = 6 then some (ipv4Header + 24)
  else none

/-- The type and the group; the maximal response time is read between them. -/
def parseIgmp (rd : Nat → Option UInt8) (igmpMsg : Nat) : Option (IgmpType × Nat) :=
  (read rd igmpMsg 1).bind fun type =>
  (read rd (igmpMsg + 1) 1).bind fun _ =>
  (read rd (igmpMsg + 4) 4).map fun group => (.ofByte (ofBytes type), ofBytes group)

/-- What becomes of a packet: it is rejected, or its message and descriptor are handed on. -/
inductive Parsed where
  | rejected
  | message (igmpMsg : Nat) (desc : PacketDesc)
deriving DecidableEq, Repr

/-- The parsing in `mcInput` and the check of the MAC behind it, through a reader of the
packet.  There is no result when a byte is read that the reader does not have, or a message
at NULL. -/
def parsePacket (rd : Nat → Option UInt8) (portId : Nat) : Option Parsed :=
  (parseEth rd).bind fun eth =>
  (parseIp rd eth.ipv4Header).bind fun ip =>
  (igmpPointer eth.ipv4Header ip.ihl).bind fun igmpMsg =>
  (parseIgmp rd igmpMsg).map fun igmp =>
    if eth.daMac.take 3 = [0x01, 0x00, 0x5e] then
      .message igmpMsg
        { igmpType := igmp.1
          ingressPortId := portId
          daMac := eth.daMac
          saMac := eth.saMac
          cVlan := eth.cVlan
          destIp := ip.destIp
          srcIp := ip.srcIp
          igmpGroupAdress := igmp.2 }
    else .rejected

/-- What `mcInput` asks before it looks at a packet, and whether it gets a buffer for it. -/
structure InputState where
  recvEn : Bool
  isInitialized : Bool
  rawPkt : Bool

/-- `mcInput` up to the switch on the mode, where only the received bytes may be read. -/
def mcInputParse (s : InputState) (ingressRawPkt : List UInt8) (portId : Nat) : Option Parsed :=
  if ingressRawPkt.length ≤ 1518 ∧ s.recvEn ∧ s.isInitialized then
    if s.rawPkt then parsePacket (fun i => ingressRawPkt[i]?) portId else none
  else some .rejected

/-- The packet is rejected, or its message lies inside of it. -/
def Parsed.Inside (ingressRawPkt : List UInt8) : Parsed → Prop
  | .rejected => True
  | .message igmpMsg _ => igmpMsg + 8 ≤ ingressRawPkt.length

/-- `rawPkt` as it lies in memory: of the `BIG_BUF_LEN` bytes only four are cleared, the others
hold what an older block left there. -/
def rawPktReader (ingressRawPkt : List UInt8) (old : Nat → UInt8) (i : Nat) : Option UInt8 :=
  if i < bigBufLen then some (ingressRawPkt.getD i (if i < 4 then 0 else old i)) else none

/-! ### The condition -/

/-- Where the IP header starts. -/
def ipOffset (ingressRawPkt : List UInt8) : Nat :=
  if isTpid (ofBytes ((ingressRawPkt.drop 12).take 2)) then 18 else 14

/-- The length field of the IP header. -/
def ihlOf (ingressRawPkt : List UInt8) : Nat :=
  (ingressRawPkt.getD (ipOffset ingressRawPkt) 0).toNat % 16

/-- The IP header is five or six words long, and it and a message behind it were received. -/
def HasMessage (ingressRawPkt : List UInt8) : Prop :=
  (ihlOf ingressRawPkt = 5 ∨ ihlOf ingressRawPkt = 6) ∧
    ipOffset ingressRawPkt + 4 * ihlOf ingressRawPkt + 8 ≤ ingressRawPkt.length

instance (ingressRawPkt : List UInt8) : Decidable (HasMessage ingressRawPkt) :=
  inferInstanceAs (Decidable (_ ∧ _))

/-! ### What each part reads -/

section Received

variable {raw : List UInt8} {portId : Nat}

theorem parseEth_ipv4Header {eth : EthHeader} (h : parseEth (fun i => raw[i]?) = some eth) :
    eth.ipv4Header = ipOffset raw := by
  obtain ⟨dest, -, h⟩ := Option.bind_eq_some_iff.mp h
  obtain ⟨src, -, h⟩ := Option.bind_eq_some_iff.mp h
  obtain ⟨type, htype, h⟩ := Option.bind_eq_some_iff.mp h
  have hlen : 12 + 2 ≤ raw.length :=
    (read_list_isSome_iff (by decide)).mp (Option.isSome_of_eq_some htype)
  rw [read_list hlen, Option.some.injEq] at htype
  rw [ipOffset, htype]
  split at h
  · next htag =>
    obtain ⟨tci, -, rfl⟩ := Option.map_eq_some_iff.mp h
    exact (if_pos htag).symm
  · next htag =>
    cases h
    exact (if_neg htag).symm

theorem parseEth_isSome (h : 18 ≤ raw.length) : (parseEth fun i => raw[i]?).isSome := by
  rw [parseEth, read_list (by omega), Option.bind_some, read_list (by omega), Option.bind_some,
    read_list (by omega), Option.bind_some]
  split
  · rw [read_list (by omega)]
    rfl
  · rfl

theorem parseIp_ihl {ipv4Header : Nat} {ip : IpHeader}
    (h : parseIp (fun i => raw[i]?) ipv4Header = some ip) :
    ip.ihl = (raw.getD ipv4Header 0).toNat % 16 := by
  obtain ⟨destAddr, -, h⟩ := Option.bind_eq_some_iff.mp h
  obtain ⟨srcAddr, -, h⟩ := Option.bind_eq_some_iff.mp h
  obtain ⟨versionIhl, hbyte, rfl⟩ := Option.map_eq_some_iff.mp h
  have hlen : ipv4Header + 1 ≤ raw.length :=
    (read_list_isSome_iff (by decide)).mp (Option.isSome_of_eq_some hbyte)
  have hin : ipv4Header < raw.length := by omega
  rw [read_list hlen, Option.some.injEq] at hbyte
  rw [← hbyte, List.drop_eq_getElem_cons hin, List.getD_eq_getElem _ _ hin, List.take_succ_cons,
    List.take_zero]
  simp [ofBytes]

theorem parseIp_isSome {ipv4Header : Nat} (h : ipv4Header + 20 ≤ raw.length) :
    (parseIp (fun i => raw[i]?) ipv4Header).isSome := by
  rw [parseIp, read_list (by omega), Option.bind_some, read_list (by omega), Option.bind_some,
    read_list (by omega)]
  rfl

theorem igmpPointer_eq_some_iff {ipv4Header ihl igmpMsg : Nat} :
    igmpPointer ipv4Header ihl = some igmpMsg ↔
      (ihl = 5 ∨ ihl = 6) ∧ igmpMsg = ipv4Header + 4 * ihl := by
  unfold igmpPointer
  split
  · next h =>
    subst h
    simp [eq_comm]
  · split
    · next h =>
      subst h
      simp [eq_comm]
    · next h5 h6 => simp [h5, h6]

theorem parseIgmp_isSome_iff {igmpMsg : Nat} :
    (parseIgmp (fun i => raw[i]?) igmpMsg).isSome ↔ igmpMsg + 8 ≤ raw.length := by
  constructor
  · intro h
    obtain ⟨igmp, h⟩ := Option.isSome_iff_exists.mp h
    obtain ⟨type, -, h⟩ := Option.bind_eq_some_iff.mp h
    obtain ⟨maxResp, -, h⟩ := Option.bind_eq_some_iff.mp h
    obtain ⟨group, hgroup, -⟩ := Option.map_eq_some_iff.mp h
    have hlen : igmpMsg + 4 + 4 ≤ raw.length :=
      (read_list_isSome_iff (by decide)).mp (Option.isSome_of_eq_some hgroup)
    omega
  · intro h
    rw [parseIgmp, read_list (by omega), Option.bind_some, read_list (by omega),
      Option.bind_some, read_list (by omega)]
    rfl

/-! ### The packet -/

/-- What is parsed without a byte beyond the packet has a message in it. -/
theorem hasMessage_of_parsePacket {p : Parsed}
    (h : parsePacket (fun i => raw[i]?) portId = some p) : HasMessage raw ∧ p.Inside raw := by
  obtain ⟨eth, heth, h⟩ := Option.bind_eq_some_iff.mp h
  obtain ⟨ip, hip, h⟩ := Option.bind_eq_some_iff.mp h
  obtain ⟨igmpMsg, hpointer, h⟩ := Option.bind_eq_some_iff.mp h
  obtain ⟨igmp, higmp, rfl⟩ := Option.map_eq_some_iff.mp h
  have hlen := parseIgmp_isSome_iff.mp (Option.isSome_of_eq_some higmp)
  have hihl : ip.ihl = ihlOf raw := by
    rw [parseIp_ihl hip, parseEth_ipv4Header heth, ihlOf]
  rw [parseEth_ipv4Header heth, hihl, igmpPointer_eq_some_iff] at hpointer
  obtain ⟨hwords, rfl⟩ := hpointer
  refine ⟨⟨hwords, hlen⟩, ?_⟩
  split
  · exact hlen
  · exact trivial

theorem parsePacket_isSome (h : HasMessage raw) :
    (parsePacket (fun i => raw[i]?) portId).isSome := by
  obtain ⟨hwords, hlen⟩ := h
  have hoffset : 14 ≤ ipOffset raw := by
    unfold ipOffset
    split <;> decide
  have hethSome : (parseEth fun i => raw[i]?).isSome := parseEth_isSome (by omega)
  have hipSome : (parseIp (fun i => raw[i]?) (ipOffset raw)).isSome :=
    parseIp_isSome (by omega)
  obtain ⟨eth, heth⟩ := Option.isSome_iff_exists.mp hethSome
  obtain ⟨ip, hip⟩ := Option.isSome_iff_exists.mp hipSome
  have hihl : ip.ihl = ihlOf raw := parseIp_ihl hip
  have hpointer : igmpPointer (ipOffset raw) (ihlOf raw) =
      some (ipOffset raw + 4 * ihlOf raw) := igmpPointer_eq_some_iff.mpr ⟨hwords, rfl⟩
  obtain ⟨igmp, higmp⟩ := Option.isSome_iff_exists.mp (parseIgmp_isSome_iff.mpr hlen)
  rw [parsePacket, heth, Option.bind_some, parseEth_ipv4Header heth, hip, Option.bind_some, hihl,
    hpointer, Option.bind_some, higmp]
  rfl

end Received

/-- What was parsed from less is parsed from more. -/
theorem parsePacket_mono {rd rd' : Nat → Option UInt8} (hrd : ∀ i b, rd i = some b → rd' i = some b)
    {portId : Nat} {p : Parsed} (h : parsePacket rd portId = some p) :
    parsePacket rd' portId = some p := by
  obtain ⟨eth, heth, h⟩ := Option.bind_eq_some_iff.mp h
  obtain ⟨ip, hip, h⟩ := Option.bind_eq_some_iff.mp h
  obtain ⟨igmpMsg, hpointer, h⟩ := Option.bind_eq_some_iff.mp h
  obtain ⟨igmp, higmp, h⟩ := Option.map_eq_some_iff.mp h
  have heth' : parseEth rd' = some eth := by
    obtain ⟨dest, hdest, heth⟩ := Option.bind_eq_some_iff.mp heth
    obtain ⟨src, hsrc, heth⟩ := Option.bind_eq_some_iff.mp heth
    obtain ⟨type, htype, heth⟩ := Option.bind_eq_some_iff.mp heth
    rw [parseEth, read_mono hrd hdest, Option.bind_some, read_mono hrd hsrc, Option.bind_some,
      read_mono hrd htype, Option.bind_some, ← heth]
    split
    · next htag =>
      rw [if_pos htag] at heth
      obtain ⟨tci, htci, -⟩ := Option.map_eq_some_iff.mp heth
      rw [htci, read_mono hrd htci]
    · rfl
  have hip' : parseIp rd' eth.ipv4Header = some ip := by
    obtain ⟨destAddr, hdest, hip⟩ := Option.bind_eq_some_iff.mp hip
    obtain ⟨srcAddr, hsrc, hip⟩ := Option.bind_eq_some_iff.mp hip
    obtain ⟨versionIhl, hbyte, hip⟩ := Option.map_eq_some_iff.mp hip
    rw [parseIp, read_mono hrd hdest, Option.bind_some, read_mono hrd hsrc, Option.bind_some,
      read_mono hrd hbyte, Option.map_some, hip]
  have higmp' : parseIgmp rd' igmpMsg = some igmp := by
    obtain ⟨type, htype, higmp⟩ := Option.bind_eq_some_iff.mp higmp
    obtain ⟨maxResp, hresp, higmp⟩ := Option.bind_eq_some_iff.mp higmp
    obtain ⟨group, hgroup, higmp⟩ := Option.map_eq_some_iff.mp higmp
    rw [parseIgmp, read_mono hrd htype, Option.bind_some, read_mono hrd hresp, Option.bind_some,
      read_mono hrd hgroup, Option.map_some, higmp]
  rw [parsePacket, heth', Option.bind_some, hip', Option.bind_some, hpointer, Option.bind_some,
    higmp', Option.map_some, h]

/-- Where the received bytes are enough, nothing that lay in the buffer before is seen. -/
theorem parsePacket_rawPkt {raw : List UInt8} (hlen : raw.length ≤ 1518) {portId : Nat}
    {p : Parsed} (h : parsePacket (fun i => raw[i]?) portId = some p) (old : Nat → UInt8) :
    parsePacket (rawPktReader raw old) portId = some p := by
  refine parsePacket_mono ?_ h
  intro i b hb
  obtain ⟨hi, hget⟩ := List.getElem?_eq_some_iff.mp hb
  have hbuf : i < bigBufLen := Nat.lt_of_lt_of_le hi (Nat.le_trans hlen (by decide))
  rw [rawPktReader, if_pos hbuf, List.getD_eq_getElem _ _ hi, hget]

/-- **A packet of at most 1518 bytes is parsed from the bytes received, with a message inside
of it or a rejection, exactly when packets are not taken in at all, or there is a buffer for
it and the bytes that it has reach to the end of the message behind a header of five or six
words.** -/
theorem parse_inside_iff (s : InputState) {raw : List UInt8} (hlen : raw.length ≤ 1518)
    (portId : Nat) :
    (∃ p, mcInputParse s raw portId = some p ∧ p.Inside raw) ↔
      (s.recvEn = true ∧ s.isInitialized = true → s.rawPkt = true ∧ HasMessage raw) := by
  unfold mcInputParse
  by_cases hin : s.recvEn = true ∧ s.isInitialized = true
  · rw [if_pos ⟨hlen, hin⟩, imp_iff_right hin]
    cases s.rawPkt with
    | false => simp
    | true =>
      rw [if_pos rfl, and_iff_right rfl]
      constructor
      · rintro ⟨p, hparse, -⟩
        exact (hasMessage_of_parsePacket hparse).1
      · intro hmessage
        obtain ⟨p, hparse⟩ := Option.isSome_iff_exists.mp (parsePacket_isSome hmessage)
        exact ⟨p, hparse, (hasMessage_of_parsePacket hparse).2⟩
  · rw [if_neg fun h => hin h.2]
    exact iff_of_true ⟨.rejected, rfl, trivial⟩ fun h => absurd h hin

/-- A version 2 report for 224.1.1.1, with a header of `words` words and zeros for its options. -/
def reportPacket (words : Nat) : List UInt8 :=
  [0x01, 0x00, 0x5e, 0x01, 0x01, 0x01, 0, 0, 0, 0, 0, 0, 0x08, 0x00] ++
    [0x40 + UInt8.ofNat words, 0, 0, 28, 0, 0, 0, 0, 1, 2, 0, 0, 0, 0, 0, 7, 0xe0, 1, 1, 1] ++
    List.replicate (4 * (words - 5)) 0 ++ [0x16, 0, 0, 0, 0xe0, 1, 1, 1]

theorem report_inside :
    ∃ p, mcInputParse ⟨true, true, true⟩ (reportPacket 6) 1 = some p ∧
      p.Inside (reportPacket 6) :=
  (parse_inside_iff ⟨true, true, true⟩ (by decide) 1).mpr fun _ => by decide

/-- A packet that ends behind its IP header is taken for the message an older block left; one
with seven words in its header makes `mcInput` read at NULL. -/
theorem message_not_received :
    let short := (reportPacket 5).take 34
    (¬∃ p, mcInputParse ⟨true, true, true⟩ short 1 = some p ∧ p.Inside short) ∧
      (∃ old desc, parsePacket (rawPktReader short old) 1 = some (.message 34 desc)) ∧
      mcInputParse ⟨true, true, true⟩ (reportPacket 7) 1 = none := by
  refine ⟨?_, ⟨fun i => (reportPacket 5).getD i 0, reportFrom 1 7 0xe0010101, ?_⟩, ?_⟩
  · rintro ⟨p, hparse, -⟩
    have hnone : mcInputParse ⟨true, true, true⟩ ((reportPacket 5).take 34) 1 = none := by decide
    rw [hnone] at hparse
    cases hparse
  · decide
  · decide

end Opconn.Multicast
