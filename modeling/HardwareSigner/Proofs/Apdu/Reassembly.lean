import HardwareSigner.Proofs.Apdu.Packets
/-!
Reassembly.  A reader waits for the packets of a message in their order and is not moved by any
other of them, so that a message comes out once if all its packets arrive in order, whatever else
arrives between them, and not at all if they do not.
-/

namespace HardwareSigner.Apdu

namespace Reader

/-- What a reader answers to packets that arrive one after another. -/
def answers : Reader → List Bytes → List (Except ResponseFault (Option Bytes))
  | _, [] => []
  | r, p :: ps => (r.push p).1 :: (r.push p).2.answers ps

def feed (r : Reader) (arrived : List Bytes) : Reader :=
  arrived.foldl (fun r p => (r.push p).2) r

/-- The message that comes out with an answer. -/
def message? : Except ResponseFault (Option Bytes) → Option Bytes
  | .ok message => message
  | .error _ => none

/-- The messages that come out while packets arrive. -/
def messages (r : Reader) (arriving : List Bytes) : List Bytes :=
  (r.answers arriving).filterMap message?

/-- The packet is a fault, and leaves the reader as it was. -/
def Refuses (r : Reader) (p : Bytes) : Prop :=
  ∃ fault, r.push p = (.error fault, r)

/-- The reader waits for packets in this order, refuses all others that there are, and gives the
message with the last. -/
inductive Awaits (known : List Bytes) (message : Bytes) : Reader → List Bytes → Prop where
  | done {r} : (∀ p ∈ known, r.Refuses p) → Awaits known message r []
  | next {r r' q qs} : (∀ p ∈ known, p ≠ q → r.Refuses p) →
      r.push q = (.ok (if qs = [] then some message else none), r') →
      Awaits known message r' qs → Awaits known message r (q :: qs)

section
variable {known : List Bytes} {message : Bytes} {r : Reader}

theorem messages_of_refuses {p : Bytes} (refuses : r.Refuses p) (ps : List Bytes) :
    r.messages (p :: ps) = r.messages ps := by
  obtain ⟨fault, pushed⟩ := refuses
  simp only [messages, answers, pushed, List.filterMap_cons, message?]

theorem feed_of_refuses {p : Bytes} (refuses : r.Refuses p) (ps : List Bytes) :
    r.feed (p :: ps) = r.feed ps := by
  obtain ⟨fault, pushed⟩ := refuses
  simp only [feed, List.foldl_cons, pushed]

theorem sublist_cons_of_ne {α : Type} {p q : α} (other : p ≠ q) {qs ps : List α} :
    (q :: qs).Sublist (p :: ps) ↔ (q :: qs).Sublist ps := by
  constructor
  · intro within
    cases within with
    | cons _ later => exact later
    | cons_cons _ _ => exact absurd rfl other
  · exact List.Sublist.cons p

/-- The message comes out once or not at all. -/
theorem Awaits.messages {upcoming : List Bytes} (awaits : Awaits known message r upcoming)
    {arriving : List Bytes} (among : ∀ p ∈ arriving, p ∈ known) :
    r.messages arriving =
      if upcoming ≠ [] ∧ upcoming.Sublist arriving then [message] else [] := by
  -- Over what arrives: a packet either is the next one and shortens both lists, or is passed over.
  induction arriving generalizing r upcoming with
  | nil =>
      rw [if_neg]
      · rfl
      · rintro ⟨some, within⟩
        exact some (List.sublist_nil.mp within)
  | cons p ps ih =>
      obtain ⟨here, later⟩ := List.forall_mem_cons.mp among
      cases awaits with
      | done refuses =>
          rw [messages_of_refuses (refuses p here), ih (.done refuses) later,
            if_neg (fun both => both.1 rfl), if_neg (fun both => both.1 rfl)]
      | @next _ r' q qs refuses pushed awaits =>
          by_cases same : p = q
          · subst same
            have out : r.messages (p :: ps) =
                (if qs = [] then [message] else []) ++ r'.messages ps := by
              simp only [Reader.messages, answers, pushed, List.filterMap_cons, message?]
              by_cases last : qs = [] <;> simp only [last, if_true, if_false] <;> rfl
            rw [out, ih awaits later]
            by_cases last : qs = []
            · subst last
              rw [if_pos rfl, if_neg (fun both => both.1 rfl),
                if_pos ⟨List.cons_ne_nil p [], (List.nil_sublist ps).cons_cons p⟩]
              rfl
            · simp only [last, if_false, List.nil_append, ne_eq, not_false_eq_true, true_and,
                reduceCtorEq, List.cons_sublist_cons]
          · rw [messages_of_refuses (refuses p here same), ih (.next refuses pushed awaits) later]
            simp only [sublist_cons_of_ne same]

/-- A reader has taken as many packets as have arrived in order. -/
theorem Awaits.feed {upcoming : List Bytes} (awaits : Awaits known message r upcoming)
    {arrived : List Bytes} (among : ∀ p ∈ arrived, p ∈ known) :
    ∃ taken left, upcoming = taken ++ left ∧ taken.Sublist arrived ∧
      (∀ q rest, left = q :: rest → ¬ (taken ++ [q]).Sublist arrived) ∧
      Awaits known message (r.feed arrived) left := by
  induction arrived generalizing r upcoming with
  | nil =>
      refine ⟨[], upcoming, rfl, List.nil_sublist _, ?_, awaits⟩
      intro q rest _ within
      cases List.sublist_nil.mp within
  | cons p ps ih =>
      obtain ⟨here, later⟩ := List.forall_mem_cons.mp among
      cases awaits with
      | done refuses =>
          obtain ⟨taken, left, split, -, -, still⟩ := ih (.done refuses) later
          obtain ⟨rfl, rfl⟩ := List.append_eq_nil_iff.mp split.symm
          rw [feed_of_refuses (refuses p here)]
          exact ⟨[], [], rfl, List.nil_sublist _, nofun, still⟩
      | @next _ r' q qs refuses pushed awaits =>
          by_cases same : p = q
          · subst same
            obtain ⟨taken, left, rfl, within, first, still⟩ := ih awaits later
            refine ⟨p :: taken, left, rfl, within.cons_cons p, ?_, ?_⟩
            · intro x rest split more
              exact first x rest split (List.cons_sublist_cons.mp more)
            · rw [Reader.feed, List.foldl_cons, pushed]
              exact still
          · obtain ⟨taken, left, split, within, first, still⟩ :=
              ih (.next refuses pushed awaits) later
            rw [feed_of_refuses (refuses p here same)]
            refine ⟨taken, left, split, within.cons p, ?_, still⟩
            rintro x rest rfl more
            apply first x rest rfl
            cases taken with
            | nil =>
                obtain ⟨rfl, -⟩ := List.cons.inj split
                exact (sublist_cons_of_ne same).mp more
            | cons y taken =>
                obtain ⟨rfl, -⟩ := List.cons.inj split
                exact (sublist_cons_of_ne same).mp more

/-- The packet that comes next once others have arrived: those before it have arrived in order, and
it has not come after them. -/
def IsNext (expected arrived : List Bytes) (p : Bytes) : Prop :=
  ∃ before after, expected = before ++ p :: after ∧ before.Sublist arrived ∧
    ¬ (before ++ [p]).Sublist arrived

/-- Only the next packet is taken. -/
theorem Awaits.refuses_iff {upcoming : List Bytes} (awaits : Awaits known message r upcoming)
    {arrived : List Bytes} (among : ∀ p ∈ arrived, p ∈ known) {p : Bytes} (here : p ∈ known) :
    (r.feed arrived).Refuses p ↔ ¬ IsNext upcoming arrived p := by
  obtain ⟨taken, left, rfl, within, first, still⟩ := awaits.feed among
  -- Neither of two starts is longer than the other: one more packet has not arrived in order.
  have head (before after : List Bytes) (split : taken ++ left = before ++ p :: after)
      (came : before.Sublist arrived) (notYet : ¬ (before ++ [p]).Sublist arrived) :
      left = p :: after := by
    rcases List.append_eq_append_iff.mp split with ⟨more, rfl, same⟩ | ⟨more, rfl, same⟩
    · cases more with
      | nil => exact same
      | cons q more =>
          have further : (taken ++ [q]).Sublist (taken ++ q :: more) :=
            (List.Sublist.refl taken).append ((List.nil_sublist more).cons_cons q)
          exact absurd (further.trans came) (first q _ same)
    · cases more with
      | nil => exact same.symm
      | cons q more =>
          obtain ⟨rfl, -⟩ := List.cons.inj same
          have further : (before ++ [p]).Sublist (before ++ p :: more) :=
            (List.Sublist.refl before).append ((List.nil_sublist more).cons_cons p)
          exact absurd (further.trans within) notYet
  constructor
  · rintro ⟨fault, refused⟩ ⟨before, after, split, came, notYet⟩
    rw [head before after split came notYet] at still
    cases still with
    | next _ pushed _ =>
        rw [pushed] at refused
        cases refused
  · intro other
    cases still with
    | done refuses => exact refuses p here
    | @next _ _ q qs refuses _ _ =>
        refine refuses p here ?_
        rintro rfl
        exact other ⟨taken, qs, rfl, within, first p qs rfl⟩

end

section
variable {channel : UInt16} {message : Bytes}

/-- A reader refuses the packets of a message that stand at another place. -/
theorem refuses_other (short : message.length < 2 ^ 16) {r : Reader} {place : Nat}
    (linked : r.channel = channel) (waits : r.sequence = UInt16.ofNat place)
    (within : place ≤ (parts message).length) {p : Bytes} (known : p ∈ packets channel message)
    (other : (packets channel message)[place]? ≠ some p) : r.Refuses p := by
  obtain ⟨place', part, here, rfl⟩ := mem_packets_iff.mp known
  subst linked
  refine ⟨_, push_other (fits_of_part here) ?_ _⟩
  rw [waits]
  intro same
  -- There are too few packets for two of them to share a sequence number.
  have bound := length_parts_lt short
  have place'_lt := (List.getElem?_eq_some_iff.mp here).1
  have equal : place' = place := by
    have read := congrArg UInt16.toNat same
    rw [UInt16.toNat_ofNat', UInt16.toNat_ofNat'] at read
    omega
  subst equal
  apply other
  rw [getElem?_packets, here, Option.map_some]

/-- A reader at the place of a packet waits for that packet and those behind it. -/
theorem awaits_cons (short : message.length < 2 ^ 16) {r r' : Reader} {place : Nat} {part : Bytes}
    (linked : r.channel = channel) (waits : r.sequence = UInt16.ofNat place)
    (here : (parts message)[place]? = some part)
    (pushed : r.push (packet channel message.length part place) =
      (.ok (if (packets channel message).drop (place + 1) = [] then some message else none), r'))
    (still : Awaits (packets channel message) message r'
      ((packets channel message).drop (place + 1))) :
    Awaits (packets channel message) message r ((packets channel message).drop place) := by
  have found : (packets channel message)[place]? =
      some (packet channel message.length part place) := by
    rw [getElem?_packets, here, Option.map_some]
  obtain ⟨bound, head⟩ := List.getElem?_eq_some_iff.mp found
  rw [List.drop_eq_getElem_cons bound, head]
  refine .next ?_ pushed still
  intro p known other
  refine refuses_other short linked waits (List.getElem?_eq_some_iff.mp here).1.le known ?_
  rw [found]
  exact fun same => other (Option.some.inj same).symm

/-- Where a reader stands once it has taken the packets before a place. -/
def standing (channel : UInt16) (size place : Nat) (taken rest : Bytes) : Reader :=
  ⟨channel, UInt16.ofNat place, some size, if rest = [] then [] else taken⟩

/-- When no part is left, the reader refuses all packets of the message. -/
theorem awaits_none (short : message.length < 2 ^ 16) {r : Reader} {place : Nat}
    (linked : r.channel = channel) (waits : r.sequence = UInt16.ofNat place)
    (within : place ≤ (parts message).length) (none : (parts message).drop place = []) :
    Awaits (packets channel message) message r ((packets channel message).drop place) := by
  rw [drop_packets_eq_nil_iff.mpr none]
  refine .done fun p known => refuses_other short linked waits within known ?_
  rw [getElem?_packets, List.getElem?_eq_none (List.drop_eq_nil_iff.mp none)]
  exact nofun

/-- Behind the first packet: the rest of the message is what the packets from here on carry. -/
theorem awaits_later (short : message.length < 2 ^ 16) (fuel : Nat) {place : Nat}
    {taken rest : Bytes} (split : message = taken ++ rest) (enough : rest.length ≤ fuel)
    (behind : place ≠ 0) (within : place ≤ (parts message).length)
    (carried : (parts message).drop place = laterParts fuel rest) :
    Awaits (packets channel message) message
      (standing channel message.length place taken rest)
      ((packets channel message).drop place) := by
  -- The invariant: `taken` is in the buffer, and the parts still to come are those of `rest`.
  induction fuel generalizing place taken rest with
  | zero => exact awaits_none short rfl rfl within carried
  | succ fuel ih =>
      by_cases done : rest = []
      · rw [done, laterParts_nil] at carried
        exact awaits_none short rfl rfl within carried
      · rw [laterParts_of_ne_nil fuel done] at carried
        have fewer : (rest.drop 59).length ≤ fuel := by
          have some := List.length_pos_iff.mpr done
          rw [List.length_drop]
          omega
        have here : (parts message)[place]? = some (rest.take 59) := by
          rw [← List.head?_drop, carried, List.head?_cons]
        have more : (parts message).drop (place + 1) = laterParts fuel (rest.drop 59) := by
          rw [← List.tail_drop, carried, List.tail_cons]
        have size : message.length = taken.length + rest.length := by
          rw [split, List.length_append]
        have header : headerSize = headerSize + (announcement 0 place).length := by
          rw [length_announcement, if_neg behind, Nat.add_zero]
        have pushed := @push_next ⟨channel, UInt16.ofNat place, some message.length, taken⟩
          place 59 rest rfl header rfl message.length size
        have last : (packets channel message).drop (place + 1) = [] ↔ rest.drop 59 = [] := by
          rw [drop_packets_eq_nil_iff, more, laterParts_eq_nil_iff fewer]
        have joined : message = taken ++ rest.take 59 ++ rest.drop 59 := by
          rw [List.append_assoc, List.take_append_drop, split]
        have still := @ih (place + 1) (taken ++ rest.take 59) (rest.drop 59) joined fewer
          (Nat.succ_ne_zero place) (List.getElem?_eq_some_iff.mp here).1 more
        rw [standing, if_neg done]
        refine awaits_cons short rfl rfl here (pushed.trans ?_) still
        simp only [← size, ← split, standing, last]

/-- A fresh reader waits for all packets of a message. -/
theorem awaits_start (short : message.length < 2 ^ 16) :
    Awaits (packets channel message) message (start channel) (packets channel message) := by
  have here : (parts message)[0]? = some (message.take 57) := rfl
  have enough : (message.drop 57).length ≤ message.length := List.length_drop ▸ Nat.sub_le _ _
  have last : (packets channel message).drop 1 = [] ↔ message.drop 57 = [] := by
    rw [drop_packets_eq_nil_iff]
    exact laterParts_eq_nil_iff enough
  have announced : (word (packet channel message.length (message.take 57) 0) headerSize).toNat =
      0 + message.length := by
    rw [word_size, UInt16.toNat_ofNat', Nat.mod_eq_of_lt short, Nat.zero_add]
  have pushed := @push_next (start channel) 0 57 message rfl rfl rfl message.length announced
  have still : Awaits (packets channel message) message
      (standing channel message.length 1 (message.take 57) (message.drop 57))
      ((packets channel message).drop 1) :=
    awaits_later short message.length (List.take_append_drop 57 message).symm enough
      Nat.one_ne_zero (Nat.le_add_left 1 _) rfl
  have all := awaits_cons short rfl rfl here (pushed.trans ?_) still
  · exact all
  · simp only [standing, last, start, List.length_nil, Nat.zero_add, List.nil_append]

end

/-- A message is cut into packets unless it is too long.  If any of these packets arrive at a fresh
reader, in any order, it comes out once if they all arrive in their order among the others, and not
otherwise; a packet that is not the next one is refused and changes nothing. -/
theorem message_reassembled (channel : UInt16) (message : Bytes) :
    (∀ fault, wrap channel message = .error fault ↔
      65535 < message.length ∧ fault = .messageTooLong message.length) ∧
    (message.length ≤ 65535 → ∃ sent, wrap channel message = .ok sent ∧
      sent.length = (if message.length ≤ 57 then 1 else 1 + (message.length - 57) ⌈/⌉ 59) ∧
      ∀ arriving, (∀ p ∈ arriving, p ∈ sent) →
        (sent.Sublist arriving → (start channel).messages arriving = [message]) ∧
        (¬ sent.Sublist arriving → (start channel).messages arriving = []) ∧
        ∀ arrived p later, arriving = arrived ++ p :: later →
          (((start channel).feed arrived).Refuses p ↔ ¬ IsNext sent arrived p)) := by
  constructor
  · intro fault
    rw [wrap_eq]
    by_cases long : 65535 < message.length
    · rw [if_pos long, Except.error.injEq]
      exact ⟨fun same => ⟨long, same.symm⟩, fun both => both.2.symm⟩
    · rw [if_neg long]
      exact ⟨nofun, fun both => absurd both.1 long⟩
  · intro short
    have awaits : Awaits (packets channel message) message (start channel)
        (packets channel message) := awaits_start (by omega)
    have some : packets channel message ≠ [] := List.cons_ne_nil _ _
    refine ⟨packets channel message, ?_, ?_, ?_⟩
    · rw [wrap_eq, if_neg (Nat.not_lt.mpr short)]
    · rw [packets, List.length_map, List.length_zipIdx, length_parts]
      split
      · rename_i one
        rw [Nat.sub_eq_zero_of_le one, zero_ceilDiv, Nat.add_zero]
      · rfl
    · intro arriving among
      refine ⟨?_, ?_, ?_⟩
      · intro inOrder
        rw [awaits.messages among, if_pos ⟨some, inOrder⟩]
      · intro broken
        rw [awaits.messages among, if_neg (fun both => broken both.2)]
      · rintro arrived p later rfl
        obtain ⟨came, rest⟩ := List.forall_mem_append.mp among
        exact awaits.refuses_iff came (rest p List.mem_cons_self)

/-- Two packets that arrive swapped and repeated: the message comes out once they have arrived in
their order. -/
theorem message_reassembled_among_others :
    let message : Bytes := List.replicate 60 7
    ∃ p q, wrap 0x0101 message = .ok [p, q] ∧
      (start 0x0101).messages [q, p, p, q, p] = [message] ∧
      (start 0x0101).messages [q, p, p] = [] := by
  intro message
  obtain ⟨sent, wrapped, -, comes⟩ := (message_reassembled 0x0101 message).2 (by decide)
  have two : wrap 0x0101 message = .ok [packet 0x0101 60 (message.take 57) 0,
    packet 0x0101 60 (message.drop 57) 1] := rfl
  obtain rfl := Except.ok.inj (two.symm.trans wrapped)
  refine ⟨_, _, two, ?_, ?_⟩
  · exact (comes _ (by simp)).1 (by decide +kernel)
  · exact (comes _ (by simp)).2.1 (by decide +kernel)

end Reader

end HardwareSigner.Apdu
