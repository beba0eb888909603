import Opconn.Lib.Buffer
import Opconn.Multicast.VlanMap

/-!
# A VLAN tag put in and taken out

In CTC mode a report or a leave is sent on with the VLAN of its group.  An untagged packet is
moved up by four bytes inside its buffer, from the last byte down, to make room for the tag
behind the two MACs.  A port that strips tags gets a copy without the four bytes.
-/

namespace Opconn.Multicast

open Buffer

/-! ### The two routines -/

/-- `ingressPacket`: the memory of `BIG_BUF_LEN` bytes that a packet lies in. -/
abbrev PacketBuf := Nat → UInt8

inductive TagType where
  | untag
  | singleTag
deriving DecidableEq, Repr

/-- The loop of `mcCtcPacketSetVlan`, from `copyLength` on. -/
def makeRoom : Nat → PacketBuf → Option PacketBuf
  | 0, packet => some packet
  | copyLength + 1, packet =>
    if 12 < copyLength + 1 then
      (write bigBufLen packet (copyLength + 3) (packet (copyLength - 1))).bind
        (makeRoom copyLength)
    else some packet

/-- The fields of `vlan_tag`: the type, and the priority 0, the CFI as it is and the VLAN. -/
def setTag (packet : PacketBuf) (tpid vlanId : Nat) : PacketBuf := fun i =>
  match i with
  | 12 => UInt8.ofNat (tpid / 2 ^ 8)
  | 13 => UInt8.ofNat tpid
  | 14 => (packet 14 &&& 0x10) ||| UInt8.ofNat (vlanId % 2 ^ 12 / 2 ^ 8)
  | 15 => UInt8.ofNat vlanId
  | i => packet i

/-- A packet with its length and its tag type. -/
structure TaggedPacket where
  packet : PacketBuf
  packetLength : Nat
  tagType : TagType

def mcCtcPacketSetVlan (p : TaggedPacket) (tpid vlanId : Nat) : Option TaggedPacket :=
  match p.tagType with
  | .untag => (makeRoom p.packetLength p.packet).map fun packet =>
    ⟨setTag packet tpid vlanId, (p.packetLength + 4) % 2 ^ 32, .singleTag⟩
  | .singleTag => some { p with packet := setTag p.packet tpid vlanId }

/-- The tag strip mode of `mcSnoopingOutput` and `mcCtcOutput`: `tmpPacketPointer` and
`tmpPacketLength` after it. -/
def stripTag (packet : PacketBuf) (packetLen : Nat) : Option (PacketBuf × Nat) :=
  (copy bigBufLen (fun _ => 0) 0 packet 0 12).bind fun untagPacket =>
    (copy bigBufLen untagPacket 12 packet 16 ((packetLen + 2 ^ 32 - 16) % 2 ^ 32)).map
      fun untagPacket => (untagPacket, (packetLen + 2 ^ 32 - 4) % 2 ^ 32)

/-- What the port gets after the tag was put in. -/
def setAndStrip (packet : PacketBuf) (packetLength tpid vlanId : Nat) :
    Option (PacketBuf × Nat) :=
  (mcCtcPacketSetVlan ⟨packet, packetLength, .untag⟩ tpid vlanId).bind fun p =>
    stripTag p.packet p.packetLength

/-- The packet came back as it was: its length and each of its bytes. -/
def ComesBack (packet : PacketBuf) (packetLength tpid vlanId : Nat) : Prop :=
  ∃ untagPacket, setAndStrip packet packetLength tpid vlanId = some (untagPacket, packetLength) ∧
    ∀ i < packetLength, untagPacket i = packet i

/-! ### What they do to the bytes -/

variable {packet : PacketBuf} {n : Nat}

/-- The loop starts a byte too low: it moves the bytes 11 to `n - 2`. -/
theorem makeRoom_eq_moveUp (m : Nat) (packet : PacketBuf) :
    makeRoom (12 + m) packet = moveUp bigBufLen 11 4 m packet := by
  induction m generalizing packet with
  | zero => rfl
  | succ m ih =>
    have hread : 12 + m - 1 = 11 + m := by omega
    have hwritten : 12 + m + 3 = 11 + m + 4 := by omega
    rw [← Nat.add_assoc, makeRoom, if_pos (by omega), moveUp, hread, hwritten]
    congr 1
    funext packet
    exact ih packet

theorem setTag_of_lt (tpid vlanId : Nat) {i : Nat} (h : i < 12) :
    setTag packet tpid vlanId i = packet i := by
  unfold setTag
  split <;> first | omega | rfl

theorem setTag_of_le (tpid vlanId : Nat) {i : Nat} (h : 16 ≤ i) :
    setTag packet tpid vlanId i = packet i := by
  unfold setTag
  split <;> first | omega | rfl

/-- The first of the two copies never leaves the buffer. -/
theorem stripTag_eq_copy (packet : PacketBuf) (packetLen : Nat) :
    stripTag packet packetLen =
      (copy bigBufLen (fun i => if i < 12 then packet i else 0) 12 packet 16
        ((packetLen + 2 ^ 32 - 16) % 2 ^ 32)).map fun untagPacket =>
          (untagPacket, (packetLen + 2 ^ 32 - 4) % 2 ^ 32) := by
  have hmacs : copy bigBufLen (fun _ => 0) 0 packet 0 12 =
      some fun i => if i < 12 then packet i else 0 := by
    have hin : 0 + 12 ≤ bigBufLen := by decide
    rw [copy_of_le _ _ hin hin, Option.some.injEq]
    funext i
    simp only [Nat.zero_le, true_and, Nat.zero_add, Nat.sub_zero]
  rw [stripTag, hmacs, Option.bind_some]

/-- What the port gets of a packet that is long enough for a tag and fits its buffer. -/
theorem stripTag_eq (packet : PacketBuf) {packetLen : Nat} (h : 16 ≤ packetLen)
    (hsize : packetLen ≤ bigBufLen) :
    stripTag packet packetLen =
      some (fun i => if i < 12 then packet i else if i < packetLen - 4 then packet (i + 4) else 0,
        packetLen - 4) := by
  have hbuf : bigBufLen = 2048 := rfl
  have hrest : (packetLen + 2 ^ 32 - 16) % 2 ^ 32 = packetLen - 16 := by omega
  have hlen : (packetLen + 2 ^ 32 - 4) % 2 ^ 32 = packetLen - 4 := by omega
  rw [stripTag_eq_copy, hrest, hlen, copy_of_le _ _ (by omega) (by omega), Option.map_some,
    Option.some.injEq, Prod.mk.injEq, and_iff_left rfl]
  funext i
  by_cases hmac : i < 12
  · rw [if_pos hmac, if_neg (by omega), if_pos (by omega)]
  · rw [if_neg hmac]
    by_cases hin : i < packetLen - 4
    · have hread : 16 + (i - 12) = i + 4 := by omega
      rw [if_pos hin, if_pos (by omega), hread, if_neg hmac]
    · rw [if_neg hin, if_neg (by omega), if_neg (by omega)]

/-- Below 16 the length that is copied wraps; above `BIG_BUF_LEN` it leaves the buffer. -/
theorem stripTag_eq_none (packet : PacketBuf) {packetLen : Nat} (hlong : packetLen < 2 ^ 32)
    (h : packetLen < 16 ∨ bigBufLen < packetLen) : stripTag packet packetLen = none := by
  have hbuf : bigBufLen = 2048 := rfl
  have hout : ¬(12 + (packetLen + 2 ^ 32 - 16) % 2 ^ 32 ≤ bigBufLen ∧
      16 + (packetLen + 2 ^ 32 - 16) % 2 ^ 32 ≤ bigBufLen) := by omega
  rw [stripTag_eq_copy, copy, if_neg hout, Option.map_none]

/-- Where there is room for the tag, all bytes come back but the last, in whose place is what
lay three bytes behind the packet. -/
theorem setAndStrip_eq (packet : PacketBuf) {n : Nat} (h : 12 ≤ n) (hsize : n + 4 ≤ bigBufLen)
    (tpid vlanId : Nat) :
    ∃ untagPacket, setAndStrip packet n tpid vlanId = some (untagPacket, n) ∧
      ∀ i < n, untagPacket i = if 12 ≤ i ∧ i = n - 1 then packet (n + 3) else packet i := by
  have hbuf : bigBufLen = 2048 := rfl
  obtain ⟨m, rfl⟩ := Nat.exists_eq_add_of_le h
  have hroom := makeRoom_eq_moveUp m packet
  rw [moveUp_eq (by decide) _ _ (by omega)] at hroom
  have hlen : (12 + m + 4) % 2 ^ 32 = 12 + m + 4 := by omega
  rw [setAndStrip, mcCtcPacketSetVlan, hroom, Option.map_some, Option.bind_some]
  dsimp only
  rw [hlen, stripTag_eq _ (by omega) (by omega)]
  refine ⟨_, rfl, ?_⟩
  intro i hi
  by_cases hmac : i < 12
  · rw [if_pos hmac, if_neg (by omega), setTag_of_lt _ _ hmac, if_neg (by omega)]
  · rw [if_neg hmac, if_pos (by omega), setTag_of_le _ _ (by omega)]
    by_cases hlast : i = 12 + m - 1
    · rw [if_neg (by omega), if_pos (by omega)]
      congr 1
      omega
    · rw [if_pos (by omega), if_neg (by omega)]
      congr 1

theorem setAndStrip_eq_none (packet : PacketBuf) {n : Nat} (hn : n ≤ bigBufLen)
    (h : n < 12 ∨ bigBufLen < n + 4) (tpid vlanId : Nat) :
    setAndStrip packet n tpid vlanId = none := by
  have hbuf : bigBufLen = 2048 := rfl
  have hlen : (n + 4) % 2 ^ 32 = n + 4 := by omega
  rw [setAndStrip, Option.bind_eq_none_iff]
  intro p hp
  obtain ⟨packet', -, rfl⟩ := Option.map_eq_some_iff.mp hp
  dsimp only
  rw [hlen]
  exact stripTag_eq_none _ (by omega) (by omega)

/-- **A tag that is put in and stripped leaves the packet as it was exactly when the packet has
both MACs and room for the tag in its buffer, and behind the MACs nothing or a last byte that
lies in the buffer four bytes further up already.** -/
theorem tag_comes_back_iff (packet : PacketBuf) {n : Nat} (hn : n ≤ bigBufLen)
    (tpid vlanId : Nat) :
    ComesBack packet n tpid vlanId ↔
      12 ≤ n ∧ n + 4 ≤ bigBufLen ∧ (n = 12 ∨ packet (n + 3) = packet (n - 1)) := by
  by_cases hfits : 12 ≤ n ∧ n + 4 ≤ bigBufLen
  · obtain ⟨untagPacket, hresult, hbytes⟩ := setAndStrip_eq packet hfits.1 hfits.2 tpid vlanId
    have hback : ComesBack packet n tpid vlanId ↔ ∀ i < n, untagPacket i = packet i := by
      unfold ComesBack
      rw [hresult]
      simp
    rw [hback, and_iff_right hfits.1, and_iff_right hfits.2]
    constructor
    · intro hall
      rcases Nat.eq_or_lt_of_le hfits.1 with heq | hlt
      · exact Or.inl heq.symm
      · right
        rw [← hall (n - 1) (by omega), hbytes (n - 1) (by omega), if_pos (by omega)]
    · intro hlast i hi
      rw [hbytes i hi]
      split
      · next hin =>
        rcases hlast with rfl | hsame
        · omega
        · rw [hsame, hin.2]
      · rfl
  · refine iff_of_false ?_ fun h => hfits ⟨h.1, h.2.1⟩
    rintro ⟨untagPacket, hresult, -⟩
    rw [setAndStrip_eq_none packet hn (by omega)] at hresult
    cases hresult

/-- A packet of 64 bytes in a buffer that goes on as it does. -/
theorem tag_comes_back_64 : ComesBack (fun i => UInt8.ofNat (i % 4)) 64 0x8100 100 :=
  (tag_comes_back_iff _ (by decide) _ _).mpr ⟨by decide, by decide, Or.inr (by decide)⟩

/-- A packet of 60 bytes that ends in 60, in a buffer of zeros: it comes back ending in 0. -/
theorem last_byte_lost :
    ¬∀ (packet : PacketBuf) (n tpid vlanId : Nat), n ≤ bigBufLen →
      ComesBack packet n tpid vlanId := by
  intro h
  obtain ⟨untagPacket, hresult, hbytes⟩ :=
    h (fun i => if i < 60 then UInt8.ofNat (i + 1) else 0) 60 0x8100 100 (by decide)
  obtain ⟨untagPacket', hresult', hbytes'⟩ :=
    setAndStrip_eq (fun i => if i < 60 then UInt8.ofNat (i + 1) else 0)
      (show 12 ≤ 60 by decide) (by decide) 0x8100 100
  rw [hresult'] at hresult
  cases hresult
  have hlast := hbytes 59 (by decide)
  rw [hbytes' 59 (by decide)] at hlast
  revert hlast
  decide

end Opconn.Multicast
