import HardwareSigner.Apdu.Packet
import HardwareSigner.Proofs.Bytes
import Mathlib.Algebra.Order.Floor.Div
import Mathlib.GroupTheory.GroupAction.Ring
/-!
Packets.  How many a message takes, what a reader finds in the header of one, and what it makes of
one of its channel: it takes the packet at the place that it waits for, and refuses the others.
-/

namespace HardwareSigner.Apdu

/-- How much of a message the first packet carries. -/
theorem firstRoom : packetSize - firstHeaderSize = 57 := rfl

theorem laterParts_of_ne_nil (fuel : Nat) {bs : Bytes} (more : bs ≠ []) :
    laterParts (fuel + 1) bs = bs.take 59 :: laterParts fuel (bs.drop 59) := by
  cases bs with
  | nil => exact absurd rfl more
  | cons b bs => rfl

theorem laterParts_nil (fuel : Nat) : laterParts fuel [] = [] := by
  cases fuel <;> rfl

theorem length_laterParts {fuel : Nat} {bs : Bytes} (enough : bs.length ≤ fuel) :
    (laterParts fuel bs).length = bs.length ⌈/⌉ 59 := by
  rw [Nat.ceilDiv_eq_add_pred_div]
  induction fuel generalizing bs with
  | zero =>
      rw [List.length_eq_zero_iff.mp (Nat.le_zero.mp enough)]
      rfl
  | succ fuel ih =>
      by_cases done : bs = []
      · rw [done, laterParts_nil]
        rfl
      · have some := List.length_pos_iff.mpr done
        have fewer : (bs.drop 59).length ≤ fuel := by
          rw [List.length_drop]
          omega
        rw [laterParts_of_ne_nil fuel done, List.length_cons, ih fewer, List.length_drop]
        omega

theorem length_parts (message : Bytes) :
    (parts message).length = 1 + (message.length - 57) ⌈/⌉ 59 := by
  have enough : (message.drop 57).length ≤ message.length := List.length_drop ▸ Nat.sub_le _ _
  have rest := length_laterParts enough
  rw [List.length_drop] at rest
  simp only [parts, firstRoom, List.length_cons, rest]
  exact Nat.add_comm _ 1

/-- The places of the packets of a message that may be sent fit in sixteen bits. -/
theorem length_parts_lt {message : Bytes} (short : message.length < 2 ^ 16) :
    (parts message).length < 2 ^ 16 := by
  rw [length_parts, Nat.ceilDiv_eq_add_pred_div]
  omega

def packets (channel : UInt16) (message : Bytes) : List Bytes :=
  (parts message).zipIdx.map fun p => packet channel message.length p.1 p.2

/-- The length of a message is the only thing that can forbid to send it. -/
theorem wrap_eq (channel : UInt16) (message : Bytes) :
    wrap channel message =
      if 65535 < message.length then .error (.messageTooLong message.length)
      else .ok (packets channel message) := by
  by_cases long : 65535 < message.length
  · rw [if_pos long, wrap, if_pos (by omega)]
  · have fits : (parts message).length < 2 ^ 16 := length_parts_lt (by omega)
    rw [if_neg long, wrap, if_neg (by omega), if_neg (by omega)]
    rfl

/-- The length of the message, in the first packet only. -/
def announcement (size place : Nat) : Bytes :=
  if place = 0 then Bytes.ofNat 2 size else []

/-- What is left of a packet behind its header and its part. -/
def padding (part : Bytes) (place : Nat) : Bytes :=
  List.replicate (packetSize - (headerSize + (announcement 0 place).length + part.length)) 0

theorem length_announcement (size place : Nat) :
    (announcement size place).length = if place = 0 then 2 else 0 := by
  rw [announcement]
  split <;> rfl

theorem packet_eq (channel : UInt16) (size : Nat) (part : Bytes) (place : Nat) :
    packet channel size part place = channelBytes channel ++ packetTag ::
      (Bytes.ofNat 2 place ++ (announcement size place ++ (part ++ padding part place))) := by
  let filled := channelBytes channel ++ packetTag ::
    (Bytes.ofNat 2 place ++ announcement size place ++ part)
  have length : filled.length = headerSize + (announcement 0 place).length + part.length := by
    simp only [filled, List.length_append, List.length_cons, channelBytes, Bytes.length_ofNat,
      length_announcement, headerSize]
    omega
  calc packet channel size part place
      = filled ++ List.replicate (packetSize - filled.length) 0 := rfl
    _ = filled ++ padding part place := by rw [length, padding]
    _ = _ := by simp only [filled, List.append_assoc, List.cons_append]

/-- A part fits in the packet at its place. -/
def Fits (part : Bytes) (place : Nat) : Prop :=
  headerSize + (announcement 0 place).length + part.length ≤ packetSize

theorem length_packet {part : Bytes} {place : Nat} (fits : Fits part place) (channel : UInt16)
    (size : Nat) : (packet channel size part place).length = packetSize := by
  rw [Fits, length_announcement] at fits
  rw [packet_eq]
  simp only [List.length_append, List.length_cons, channelBytes, Bytes.length_ofNat, padding,
    List.length_replicate, length_announcement, headerSize] at fits ⊢
  omega

section
variable {channel : UInt16} {message : Bytes}

theorem mem_packets_iff {p : Bytes} :
    p ∈ packets channel message ↔ ∃ place part, (parts message)[place]? = some part ∧
      packet channel message.length part place = p := by
  rw [packets, List.mem_map]
  constructor
  · rintro ⟨⟨part, place⟩, here, rfl⟩
    exact ⟨place, part, List.mk_mem_zipIdx_iff_getElem?.mp here, rfl⟩
  · rintro ⟨place, part, here, rfl⟩
    exact ⟨(part, place), List.mk_mem_zipIdx_iff_getElem?.mpr here, rfl⟩

theorem length_of_mem_laterParts {fuel : Nat} {bs part : Bytes}
    (here : part ∈ laterParts fuel bs) : part.length ≤ 59 := by
  induction fuel generalizing bs with
  | zero => cases here
  | succ fuel ih =>
      by_cases done : bs = []
      · rw [done, laterParts_nil] at here
        cases here
      · rw [laterParts_of_ne_nil fuel done] at here
        rcases List.mem_cons.mp here with rfl | later
        · exact List.length_take_le _ _
        · exact ih later

theorem fits_of_part {place : Nat} {part : Bytes} (here : (parts message)[place]? = some part) :
    Fits part place := by
  cases place with
  | zero =>
      obtain rfl := Option.some.inj here
      have most := List.length_take_le 57 message
      rw [Fits, length_announcement, firstRoom, headerSize, packetSize, if_pos rfl]
      omega
  | succ place =>
      have most := length_of_mem_laterParts (List.mem_of_getElem? here)
      rw [Fits, length_announcement, headerSize, packetSize, if_neg (Nat.succ_ne_zero place)]
      omega

theorem getElem?_packets (place : Nat) :
    (packets channel message)[place]? =
      (parts message)[place]?.map fun part => packet channel message.length part place := by
  rw [packets, List.getElem?_map, List.getElem?_zipIdx, Option.map_map]
  simp only [Nat.zero_add, Function.comp_def]

theorem laterParts_eq_nil_iff {fuel : Nat} {rest : Bytes} (enough : rest.length ≤ fuel) :
    laterParts fuel rest = [] ↔ rest = [] := by
  constructor
  · intro none
    have count := length_laterParts enough
    rw [none, List.length_nil, Nat.ceilDiv_eq_add_pred_div] at count
    exact List.length_eq_zero_iff.mp (by omega)
  · rintro rfl
    exact laterParts_nil fuel

theorem drop_packets_eq_nil_iff {place : Nat} :
    (packets channel message).drop place = [] ↔ (parts message).drop place = [] := by
  rw [List.drop_eq_nil_iff, List.drop_eq_nil_iff, packets, List.length_map, List.length_zipIdx]

end

namespace Reader

theorem word_append (before after : Bytes) (x : Nat) :
    word (before ++ (Bytes.ofNat 2 x ++ after)) before.length = UInt16.ofNat x := by
  have bytes : (Bytes.ofNat 2 x).length = 2 := Bytes.length_ofNat 2 x
  rw [word, List.drop_left, List.take_left' bytes, Bytes.toNat_ofNat]
  exact UInt16.toNat_inj.mp (by simp only [UInt16.toNat_ofNat']; omega)

section
variable (channel : UInt16) (size : Nat) (part : Bytes) (place : Nat)

theorem word_channel : word (packet channel size part place) 0 = channel := by
  rw [packet_eq]
  exact (word_append [] _ channel.toNat).trans UInt16.ofNat_toNat

theorem tag_packet : (packet channel size part place).getD 2 0 = packetTag := by
  rw [packet_eq]
  rfl

theorem word_place : word (packet channel size part place) 3 = UInt16.ofNat place := by
  rw [packet_eq]
  exact word_append (channelBytes channel ++ [packetTag]) _ place

theorem word_size : word (packet channel size part 0) headerSize = UInt16.ofNat size := by
  rw [packet_eq]
  exact word_append (channelBytes channel ++ packetTag :: Bytes.ofNat 2 0) _ size

theorem drop_header :
    (packet channel size part place).drop (headerSize + (announcement 0 place).length) =
      part ++ padding part place := by
  have header : headerSize + (announcement 0 place).length =
      (channelBytes channel ++ packetTag ::
        (Bytes.ofNat 2 place ++ announcement size place)).length := by
    simp only [List.length_append, List.length_cons, channelBytes, Bytes.length_ofNat,
      length_announcement, headerSize]
    omega
  rw [header, packet_eq, ← List.append_assoc (Bytes.ofNat 2 place), ← List.cons_append,
    ← List.append_assoc]
  exact List.drop_left

end

/-- Of the packets of its channel, a reader takes those at the place that it waits for. -/
theorem check_packet {part : Bytes} {place : Nat} (fits : Fits part place) (r : Reader)
    (size : Nat) :
    r.check (packet r.channel size part place) =
      if UInt16.ofNat place = r.sequence then .ok ()
      else .error (.sequence r.sequence (UInt16.ofNat place)) := by
  have long : ¬ (packet r.channel size part place).length < r.header := by
    rw [length_packet fits, header]
    split <;> decide
  rw [check, if_neg long, word_channel, if_neg (not_not_intro rfl), tag_packet,
    if_neg (not_not_intro rfl), word_place, ite_not]

theorem push_other {part : Bytes} {place : Nat} (fits : Fits part place) {r : Reader}
    (other : UInt16.ofNat place ≠ r.sequence) (size : Nat) :
    r.push (packet r.channel size part place) =
      (.error (.sequence r.sequence (UInt16.ofNat place)), r) := by
  rw [push, check_packet fits, if_neg other]

/-- Of a part that was filled up with zeros, as much as the rest of the message has is the part. -/
theorem take_filled (rest : Bytes) (room : Nat) :
    (rest.take room ++ List.replicate (room - (rest.take room).length) 0).take rest.length =
      rest.take room := by
  by_cases more : room ≤ rest.length
  · have full : (rest.take room).length = room := List.length_take_of_le more
    rw [full, Nat.sub_self, List.replicate_zero, List.append_nil, List.take_of_length_le]
    exact full.le.trans more
  · have all : rest.take room = rest := List.take_of_length_le (by omega)
    rw [all, List.take_left]

/-- The reader takes the packet that it waits for. -/
theorem push_next {r : Reader} {place room : Nat} {rest : Bytes}
    (waits : r.sequence = UInt16.ofNat place)
    (header : r.header = headerSize + (announcement 0 place).length)
    (carries : r.header + room = packetSize) (size : Nat)
    (announced : r.expected.getD
      (word (packet r.channel size (rest.take room) place) headerSize).toNat =
        r.buffer.length + rest.length) :
    r.push (packet r.channel size (rest.take room) place) =
      (.ok (if rest.drop room = [] then some (r.buffer ++ rest) else none),
        ⟨r.channel, UInt16.ofNat (place + 1), some (r.buffer.length + rest.length),
          if rest.drop room = [] then [] else r.buffer ++ rest.take room⟩) := by
  have fits : Fits (rest.take room) place := by
    have most := List.length_take_le room rest
    rw [Fits, ← header]
    omega
  have filled : padding (rest.take room) place =
      List.replicate (room - (rest.take room).length) 0 := by
    rw [padding, ← header, ← carries, Nat.add_sub_add_left]
  have next : r.sequence + 1 = UInt16.ofNat (place + 1) := by
    rw [waits, UInt16.ofNat_add]
    rfl
  simp only [push, check_packet fits, if_pos waits.symm, announced, header, drop_header, filled,
    Nat.add_sub_cancel_left, take_filled, next]
  by_cases last : rest.drop room = []
  · have all : rest.take room = rest := by
      rw [← List.append_nil (rest.take room), ← last, List.take_append_drop]
    rw [all, if_pos (List.length_append), if_pos last, if_pos last]
  · have some : 0 < (rest.drop room).length := List.length_pos_iff.mpr last
    rw [List.length_drop] at some
    rw [if_neg, if_neg last, if_neg last]
    rw [List.length_append, List.length_take]
    omega

end Reader

end HardwareSigner.Apdu
