import HardwareSigner.Proofs.Apdu.Reassembly
/-!
Reception.  A reader stands whatever byte strings arrive: it reads nothing beyond the end of a
packet and never has more than it expects, refuses what is not in turn without a trace, and gives
what the packets that it took carry, up to the length that the first of them announced.
-/

namespace HardwareSigner.Apdu

namespace Reader

/-- The big-endian word at a place, if both of its bytes are there. -/
def word? (bs : Bytes) (offset : Nat) : Option UInt16 :=
  match bs[offset]?, bs[offset + 1]? with
  | some high, some low => some (UInt16.ofNat (high.toNat * 256 + low.toNat))
  | _, _ => none

/-- A difference, unless it is below zero. -/
def minus? (a b : Nat) : Option Nat :=
  if b ≤ a then some (a - b) else none

/-- The bytes from one place up to another, if they are there. -/
def slice? (bs : Bytes) (first last : Nat) : Option Bytes :=
  if first ≤ last ∧ last ≤ bs.length then some ((bs.take last).drop first) else none

/-- What a header says about a packet that is long enough, where each byte is looked for. -/
def check? (r : Reader) (packet : Bytes) : Option (Except ResponseFault Unit) := do
  let channel ← word? packet 0
  if channel ≠ r.channel then some (.error (.channel channel))
  else
    let tag ← packet[2]?
    if tag ≠ packetTag then some (.error (.tag tag))
    else
      let sequence ← word? packet 3
      if sequence ≠ r.sequence then some (.error (.sequence r.sequence sequence)) else some (.ok ())

/-- The length of the message, read from a packet as long as nothing has announced it. -/
def expected? (r : Reader) (packet : Bytes) : Option Nat :=
  match r.expected with
  | some expected => some expected
  | none => (word? packet headerSize).map UInt16.toNat

/-- The next piece of the message, behind the header. -/
def piece? (r : Reader) (packet : Bytes) (expected : Nat) : Option Bytes := do
  let missing ← minus? expected r.buffer.length
  let held ← minus? packet.length r.header
  slice? packet r.header (r.header + min missing held)

/-- Takes a packet as a reader does, or nothing at all if it would have to read a byte that is not
there or to take a number from a smaller one. -/
def push? (r : Reader) (packet : Bytes) :
    Option (Except ResponseFault (Option Bytes) × Reader) :=
  if packet.length < r.header then some (.error (.shortPacket packet.length), r)
  else do
    match ← r.check? packet with
    | .error fault => some (.error fault, r)
    | .ok () =>
      let expected ← r.expected? packet
      let piece ← r.piece? packet expected
      let buffer := r.buffer ++ piece
      let next : Reader := ⟨r.channel, r.sequence + 1, some expected, buffer⟩
      if buffer.length = expected then some (.ok (some buffer), { next with buffer := [] })
      else some (.ok none, next)

theorem word?_eq {bs : Bytes} {offset : Nat} (within : offset + 2 ≤ bs.length) :
    word? bs offset = some (word bs offset) := by
  have high : offset < bs.length := by omega
  have low : offset + 1 < bs.length := by omega
  have two : (bs.drop offset).take 2 = [bs[offset], bs[offset + 1]] := by
    rw [List.drop_eq_getElem_cons high, List.drop_eq_getElem_cons low]
    rfl
  have value : Bytes.toNat [bs[offset], bs[offset + 1]] =
      bs[offset].toNat * 256 + bs[offset + 1].toNat := by
    rw [Bytes.toNat, List.foldl_cons, List.foldl_cons, List.foldl_nil, Nat.zero_mul, Nat.zero_add]
  rw [word?, List.getElem?_eq_getElem high, List.getElem?_eq_getElem low, word, two, value]

theorem header_le {r : Reader} {packet : Bytes} (long : r.header ≤ packet.length) :
    headerSize ≤ packet.length := by
  rw [header] at long
  split at long
  · exact Nat.le_trans (Nat.le_add_right headerSize 2) long
  · exact long

theorem check?_eq {r : Reader} {packet : Bytes} (long : r.header ≤ packet.length) :
    r.check? packet = some (r.check packet) := by
  have five : 5 ≤ packet.length := header_le long
  have channel : word? packet 0 = some (word packet 0) := word?_eq (by omega)
  have tag : packet[2]? = some (packet.getD 2 0) := by
    rw [List.getD_eq_getElem?_getD, List.getElem?_eq_getElem (by omega)]
    rfl
  have sequence : word? packet 3 = some (word packet 3) := word?_eq five
  rw [check?, check, if_neg (Nat.not_lt.mpr long)]
  simp only [channel, tag, sequence, Option.bind_eq_bind, Option.bind_some, apply_ite some]

theorem expected?_eq {r : Reader} {packet : Bytes} (long : r.header ≤ packet.length) :
    r.expected? packet = some (r.expected.getD (word packet headerSize).toNat) := by
  cases announced : r.expected with
  | some expected => rw [expected?, announced, Option.getD_some]
  | none =>
      have seven : headerSize + 2 ≤ packet.length := by
        rw [header, announced] at long
        exact long
      rw [expected?, announced, Option.getD_none, word?_eq seven, Option.map_some]

theorem piece?_eq {r : Reader} {packet : Bytes} {expected : Nat}
    (long : r.header ≤ packet.length) (bounded : r.buffer.length ≤ expected) :
    r.piece? packet expected =
      some ((packet.drop r.header).take (expected - r.buffer.length)) := by
  have within : r.header + min (expected - r.buffer.length) (packet.length - r.header) ≤
      packet.length := by omega
  have cut : (packet.drop r.header).take (min (expected - r.buffer.length)
      (packet.length - r.header)) = (packet.drop r.header).take (expected - r.buffer.length) := by
    rw [← List.length_drop, ← List.take_eq_take_min]
  rw [piece?, minus?, if_pos bounded, minus?, if_pos long]
  simp only [Option.bind_eq_bind, Option.bind_some]
  rw [slice?, if_pos ⟨Nat.le_add_right _ _, within⟩, List.drop_take, Nat.add_sub_cancel_left, cut]

/-- As long as the reader has no more than it expects, every byte is there and every difference. -/
theorem push?_eq {r : Reader} (bounded : r.buffer.length ≤ r.expected.getD 0) (packet : Bytes) :
    r.push? packet = some (r.push packet) := by
  by_cases short : packet.length < r.header
  · rw [push?, if_pos short, push, check, if_pos short]
  · have long : r.header ≤ packet.length := Nat.not_lt.mp short
    have most : r.buffer.length ≤ r.expected.getD (word packet headerSize).toNat := by
      cases announced : r.expected with
      | none =>
          rw [announced] at bounded
          exact Nat.le_trans bounded (Nat.zero_le _)
      | some expected =>
          rw [announced] at bounded
          exact bounded
    rw [push?, if_neg short, check?_eq long, push]
    cases r.check packet with
    | error fault => rfl
    | ok _ =>
        simp only [Option.bind_eq_bind, Option.bind_some, expected?_eq long, piece?_eq long most,
          apply_ite some]

/-- The header of the packet that comes after so many others. -/
def headerAt (place : Nat) : Nat :=
  if place = 0 then firstHeaderSize else headerSize

/-- The packet names the channel, and the place that comes next. -/
structure InTurn (channel : UInt16) (place : Nat) (packet : Bytes) : Prop where
  long : headerAt place ≤ packet.length
  linked : word packet 0 = channel
  marked : packet.getD 2 0 = packetTag
  next : word packet 3 = UInt16.ofNat place

theorem inTurn_iff {channel : UInt16} {place : Nat} {packet : Bytes} :
    InTurn channel place packet ↔ headerAt place ≤ packet.length ∧ word packet 0 = channel ∧
      packet.getD 2 0 = packetTag ∧ word packet 3 = UInt16.ofNat place :=
  ⟨fun ⟨long, linked, marked, next⟩ => ⟨long, linked, marked, next⟩,
    fun ⟨long, linked, marked, next⟩ => ⟨long, linked, marked, next⟩⟩

instance (channel : UInt16) (place : Nat) (packet : Bytes) :
    Decidable (InTurn channel place packet) :=
  decidable_of_iff' _ inTurn_iff

/-- Of the packets that arrive, those that are in turn. -/
def accepted (channel : UInt16) (arrived : List Bytes) : List Bytes :=
  arrived.foldl (fun ps p => if InTurn channel ps.length p then ps ++ [p] else ps) []

theorem accepted_concat (channel : UInt16) (arrived : List Bytes) (p : Bytes) :
    accepted channel (arrived ++ [p]) =
      if InTurn channel (accepted channel arrived).length p then accepted channel arrived ++ [p]
      else accepted channel arrived := by
  rw [accepted, List.foldl_concat]
  rfl

/-- The length of the message, which stands in the first packet. -/
def announced : List Bytes → Nat
  | [] => 0
  | p :: _ => (word p headerSize).toNat

/-- What stands behind the headers of packets. -/
def carried : List Bytes → Bytes
  | [] => []
  | p :: ps => p.drop firstHeaderSize ++ ps.flatMap (·.drop headerSize)

/-- The packets carry as much as the first of them announces. -/
def Complete (ps : List Bytes) : Prop :=
  ps ≠ [] ∧ announced ps ≤ (carried ps).length

theorem announced_concat (ps : List Bytes) (p : Bytes) :
    announced (ps ++ [p]) = if ps = [] then (word p headerSize).toNat else announced ps := by
  cases ps <;> rfl

theorem carried_concat (ps : List Bytes) (p : Bytes) :
    carried (ps ++ [p]) = carried ps ++ p.drop (headerAt ps.length) := by
  cases ps with
  | nil => exact List.append_nil _
  | cons q qs =>
      have rest : (qs ++ [p]).flatMap (·.drop headerSize) =
          qs.flatMap (·.drop headerSize) ++ p.drop headerSize := by
        rw [List.flatMap_append, List.flatMap_singleton]
      rw [List.cons_append, carried, rest, ← List.append_assoc]
      rfl

/-- A packet more does not undo a message. -/
theorem Complete.concat {ps : List Bytes} (complete : Complete ps) (p : Bytes) :
    Complete (ps ++ [p]) := by
  obtain ⟨begun, enough⟩ := complete
  refine ⟨List.append_ne_nil_of_left_ne_nil begun _, ?_⟩
  rw [announced_concat, if_neg begun, carried_concat, List.length_append]
  exact Nat.le_trans enough (Nat.le_add_right _ _)

/-- The state of a reader that took these packets, apart from what is in the buffer. -/
structure Holds (channel : UInt16) (ps : List Bytes) (r : Reader) : Prop where
  linked : r.channel = channel
  waits : r.sequence = UInt16.ofNat ps.length
  expects : r.expected = if ps = [] then none else some (announced ps)
  bounded : r.buffer.length ≤ announced ps

section
variable {channel : UInt16} {ps : List Bytes} {r : Reader} {p : Bytes}

theorem Holds.header (holds : Holds channel ps r) : r.header = headerAt ps.length := by
  rw [Reader.header, headerAt, holds.expects]
  cases ps <;> rfl

theorem Holds.getD_expected (holds : Holds channel ps r) : r.expected.getD 0 = announced ps := by
  rw [holds.expects]
  cases ps <;> rfl

theorem Holds.check_ok_iff (holds : Holds channel ps r) :
    r.check p = .ok () ↔ InTurn channel ps.length p := by
  have refused {fault : ResponseFault} : ¬ (Except.error fault : Except ResponseFault Unit) = .ok () :=
    fun same => by cases same
  rw [inTurn_iff, check, holds.header, holds.linked, holds.waits]
  split
  · rename_i short
    exact iff_of_false refused fun turn => absurd turn.1 (Nat.not_le.mpr short)
  · rename_i long
    split
    · rename_i foreign
      exact iff_of_false refused fun turn => foreign turn.2.1
    · rename_i linked
      split
      · rename_i unmarked
        exact iff_of_false refused fun turn => unmarked turn.2.2.1
      · rename_i marked
        split
        · rename_i other
          exact iff_of_false refused fun turn => other turn.2.2.2
        · rename_i next
          exact iff_of_true rfl ⟨Nat.not_lt.mp long, not_not.mp linked, not_not.mp marked,
            not_not.mp next⟩

/-- What is not in turn is refused. -/
theorem Holds.refuses (holds : Holds channel ps r) (other : ¬ InTurn channel ps.length p) :
    r.Refuses p := by
  cases checked : r.check p with
  | ok _ => exact absurd (holds.check_ok_iff.mp checked) other
  | error fault =>
      refine ⟨fault, ?_⟩
      rw [push, checked]

/-- The buffer once a packet was taken. -/
def filled (ps : List Bytes) (r : Reader) (p : Bytes) : Bytes :=
  r.buffer ++ (p.drop (headerAt ps.length)).take (announced (ps ++ [p]) - r.buffer.length)

/-- What is in turn is taken, and the message comes out as soon as the buffer has all of it. -/
theorem Holds.push_inTurn (holds : Holds channel ps r) (turn : InTurn channel ps.length p) :
    r.push p =
      if (filled ps r p).length = announced (ps ++ [p]) then
        (.ok (some (filled ps r p)),
          ⟨channel, UInt16.ofNat (ps.length + 1), some (announced (ps ++ [p])), []⟩)
      else
        (.ok none,
          ⟨channel, UInt16.ofNat (ps.length + 1), some (announced (ps ++ [p])), filled ps r p⟩) := by
  have expects : r.expected.getD (word p headerSize).toNat = announced (ps ++ [p]) := by
    rw [holds.expects, announced_concat]
    cases ps <;> rfl
  have next : r.sequence + 1 = UInt16.ofNat (ps.length + 1) := by
    rw [holds.waits, UInt16.ofNat_add]
    rfl
  rw [push, holds.check_ok_iff.mpr turn]
  simp only [expects, next, holds.header, holds.linked]
  rfl

theorem Holds.bounded_filled (holds : Holds channel ps r) :
    (filled ps r p).length ≤ announced (ps ++ [p]) := by
  have before : r.buffer.length ≤ announced (ps ++ [p]) := by
    rw [announced_concat]
    split
    · rename_i first
      have none := holds.bounded
      rw [first] at none
      exact Nat.le_trans none (Nat.zero_le _)
    · exact holds.bounded
  rw [filled, List.length_append, List.length_take]
  omega

theorem Holds.next (holds : Holds channel ps r) (turn : InTurn channel ps.length p) :
    Holds channel (ps ++ [p]) (r.push p).2 := by
  have more : ps ++ [p] ≠ [] := List.concat_ne_nil p ps
  have place : (ps ++ [p]).length = ps.length + 1 := List.length_append
  rw [holds.push_inTurn turn]
  split
  · exact ⟨rfl, by rw [place], by rw [if_neg more], Nat.zero_le _⟩
  · exact ⟨rfl, by rw [place], by rw [if_neg more], holds.bounded_filled⟩

/-- Up to its first message a reader has all that the packets carry which it took. -/
def Gathers (ps : List Bytes) (r : Reader) : Prop :=
  ¬ Complete ps → r.buffer = carried ps

/-- The buffer is filled up exactly if the packets carry enough, and then with the beginning of
what they carry. -/
theorem filled_of_gathers (gathers : Gathers ps r) (incomplete : ¬ Complete ps) :
    filled ps r p = (carried (ps ++ [p])).take (announced (ps ++ [p])) := by
  have begun : r.buffer = carried ps := gathers incomplete
  have less : (carried ps).length ≤ announced (ps ++ [p]) := by
    rw [announced_concat]
    split
    · rename_i first
      rw [first]
      exact Nat.zero_le _
    · rename_i some
      exact Nat.le_of_not_le fun enough => incomplete ⟨some, enough⟩
  rw [filled, begun, carried_concat, List.take_append, List.take_of_length_le less]

theorem length_filled_iff (gathers : Gathers ps r) (incomplete : ¬ Complete ps) :
    (filled ps r p).length = announced (ps ++ [p]) ↔ Complete (ps ++ [p]) := by
  have more : ps ++ [p] ≠ [] := List.concat_ne_nil p ps
  rw [filled_of_gathers gathers incomplete, List.length_take, min_eq_left_iff, Complete]
  exact (and_iff_right more).symm

theorem Gathers.next (gathers : Gathers ps r) (holds : Holds channel ps r)
    (turn : InTurn channel ps.length p) : Gathers (ps ++ [p]) (r.push p).2 := by
  intro still
  have incomplete : ¬ Complete ps := fun complete => still (complete.concat p)
  have all : carried (ps ++ [p]) = (carried (ps ++ [p])).take (announced (ps ++ [p])) := by
    have more : ps ++ [p] ≠ [] := List.concat_ne_nil p ps
    refine (List.take_of_length_le ?_).symm
    exact Nat.le_of_not_le fun enough => still ⟨more, enough⟩
  rw [holds.push_inTurn turn, if_neg (fun full => still ?_)]
  · rw [all]
    exact filled_of_gathers gathers incomplete
  · exact (length_filled_iff gathers incomplete).mp full

end

section
variable (channel : UInt16) (arrived : List Bytes)

theorem feed_concat (r : Reader) (p : Bytes) :
    r.feed (arrived ++ [p]) = ((r.feed arrived).push p).2 := by
  rw [feed, List.foldl_concat]
  rfl

theorem messages_concat (r : Reader) (p : Bytes) :
    r.messages (arrived ++ [p]) =
      r.messages arrived ++ (message? ((r.feed arrived).push p).1).toList := by
  induction arrived generalizing r with
  | nil =>
      simp only [List.nil_append, messages, answers, feed, List.foldl_nil, List.filterMap_cons,
        List.filterMap_nil]
      cases message? (r.push p).1 <;> rfl
  | cons q qs ih =>
      have rest := ih (r.push q).2
      simp only [messages, answers, feed, List.foldl_cons, List.cons_append,
        List.filterMap_cons] at rest ⊢
      cases message? (r.push q).1 with
      | none => exact rest
      | some message => exact congrArg (message :: ·) rest

/-- What a reader holds is decided by the packets in turn among those that arrived. -/
theorem holds_feed : Holds channel (accepted channel arrived) ((start channel).feed arrived) := by
  induction arrived using List.reverseRecOn with
  | nil => exact ⟨rfl, rfl, rfl, Nat.le_refl 0⟩
  | append_singleton arrived p ih =>
      rw [feed_concat, accepted_concat]
      split
      · rename_i turn
        exact ih.next turn
      · rename_i other
        obtain ⟨fault, pushed⟩ := ih.refuses other
        rw [pushed]
        exact ih

theorem gathers_feed : Gathers (accepted channel arrived) ((start channel).feed arrived) := by
  induction arrived using List.reverseRecOn with
  | nil => exact fun _ => rfl
  | append_singleton arrived p ih =>
      have holds := holds_feed channel arrived
      rw [feed_concat, accepted_concat]
      split
      · rename_i turn
        exact ih.next holds turn
      · rename_i other
        obtain ⟨fault, pushed⟩ := holds.refuses other
        rw [pushed]
        exact ih

theorem message?_eq_some_iff {answer : Except ResponseFault (Option Bytes)} {message : Bytes} :
    message? answer = some message ↔ answer = .ok (some message) := by
  cases answer with
  | error fault => exact iff_of_false nofun nofun
  | ok found => rw [message?, Except.ok.injEq]

/-- Before the first message, a packet brings it exactly if with it the packets in turn carry
enough. -/
theorem push_message_iff (incomplete : ¬ Complete (accepted channel arrived)) (p message : Bytes) :
    (((start channel).feed arrived).push p).1 = .ok (some message) ↔
      Complete (accepted channel (arrived ++ [p])) ∧
      message = (carried (accepted channel (arrived ++ [p]))).take
        (announced (accepted channel (arrived ++ [p]))) := by
  have holds := holds_feed channel arrived
  have gathers := gathers_feed channel arrived
  rw [accepted_concat]
  by_cases turn : InTurn channel (accepted channel arrived).length p
  · rw [if_pos turn, holds.push_inTurn turn, ← length_filled_iff gathers incomplete,
      ← filled_of_gathers gathers incomplete]
    split
    · rename_i full
      rw [and_iff_right full, Except.ok.injEq, Option.some.injEq, eq_comm]
    · rename_i more
      exact iff_of_false nofun fun both => more both.1
  · obtain ⟨fault, pushed⟩ := holds.refuses turn
    rw [if_neg turn, pushed]
    exact iff_of_false nofun fun both => incomplete both.1

/-- No message has come out as long as the packets in turn carry less than was announced. -/
theorem messages_eq_nil_iff :
    (start channel).messages arrived = [] ↔ ¬ Complete (accepted channel arrived) := by
  induction arrived using List.reverseRecOn with
  | nil => exact iff_of_true rfl fun complete => complete.1 rfl
  | append_singleton arrived p ih =>
      rw [messages_concat, List.append_eq_nil_iff, ih, Option.toList_eq_nil_iff]
      by_cases complete : Complete (accepted channel arrived)
      · refine iff_of_false (fun both => both.1 complete) (not_not_intro ?_)
        rw [accepted_concat]
        split
        · exact complete.concat p
        · exact complete
      · have brings := push_message_iff channel arrived complete p
        rw [and_iff_right complete, Option.eq_none_iff_forall_ne_some]
        constructor
        · intro none after
          exact none _ (message?_eq_some_iff.mpr ((brings _).mpr ⟨after, rfl⟩))
        · intro less message found
          exact less ((brings message).mp (message?_eq_some_iff.mp found)).1

end

/--
Whatever has arrived at a fresh reader, the next packet is taken without a look at a byte that it
does not have and without a difference below zero.  It is accepted exactly if it is in turn, and
leaves no trace otherwise.  Up to the first message, the message comes out with the packet with
which the accepted ones carry as much as the first of them announces, and is that much of it.
-/
theorem any_packets_are_handled (channel : UInt16) (arrived : List Bytes) (p : Bytes) :
    let r := (start channel).feed arrived
    let before := accepted channel arrived
    let after := accepted channel (arrived ++ [p])
    r.push? p = some (r.push p) ∧
    ((∃ answer, (r.push p).1 = .ok answer) ↔ InTurn channel before.length p) ∧
    (∀ fault, (r.push p).1 = .error fault → (r.push p).2 = r) ∧
    ((start channel).messages arrived = [] ↔ ¬ Complete before) ∧
    ((start channel).messages arrived = [] → ∀ message,
      (r.push p).1 = .ok (some message) ↔
        Complete after ∧ message = (carried after).take (announced after)) := by
  intro r before after
  have holds : Holds channel before r := holds_feed channel arrived
  have silent := messages_eq_nil_iff channel arrived
  refine ⟨?_, ?_, ?_, silent, ?_⟩
  · exact push?_eq (holds.getD_expected ▸ holds.bounded) p
  · constructor
    · rintro ⟨answer, pushed⟩
      by_contra other
      obtain ⟨fault, refused⟩ := holds.refuses other
      rw [refused] at pushed
      cases pushed
    · intro turn
      rw [holds.push_inTurn turn]
      split <;> exact ⟨_, rfl⟩
  · intro fault failed
    by_cases turn : InTurn channel before.length p
    · rw [holds.push_inTurn turn] at failed
      split at failed <;> cases failed
    · obtain ⟨fault, refused⟩ := holds.refuses turn
      rw [refused]
  · intro none message
    exact push_message_iff channel arrived (silent.mp none) p message

/-- A packet that is too short and one that comes twice are refused; of a packet that is too long,
only what was still missing is taken. -/
theorem any_packets_are_handled_overlong :
    let first : Bytes := [1, 1, 5, 0, 0, 0, 60] ++ List.replicate 57 7
    let second : Bytes := [1, 1, 5, 0, 1] ++ List.replicate 95 8
    let arrived := [[1, 1], first]
    let r := (start 0x0101).feed arrived
    (r.push first).1 = .error (.sequence 1 0) ∧ (r.push first).2 = r ∧
    (start 0x0101).messages arrived = [] ∧
    (r.push second).1 = .ok (some (List.replicate 57 7 ++ List.replicate 3 8)) := by
  intro first second arrived r
  have refused : (r.push first).1 = .error (.sequence 1 0) := by decide +kernel
  have silent : (start 0x0101).messages arrived = [] := by decide +kernel
  obtain ⟨-, -, traceless, -, -⟩ := any_packets_are_handled 0x0101 arrived first
  obtain ⟨-, -, -, -, brings⟩ := any_packets_are_handled 0x0101 arrived second
  have enough : Complete (accepted 0x0101 (arrived ++ [second])) :=
    ⟨by decide +kernel, by decide +kernel⟩
  have cut : List.replicate 57 7 ++ List.replicate 3 8 =
      (carried (accepted 0x0101 (arrived ++ [second]))).take
        (announced (accepted 0x0101 (arrived ++ [second]))) := by decide +kernel
  exact ⟨refused, traceless _ refused, silent, (brings silent _).mpr ⟨enough, cut⟩⟩

end Reader

end HardwareSigner.Apdu
