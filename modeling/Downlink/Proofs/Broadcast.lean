import Downlink.Station.Broadcast

/-!
What reaches a receiver of a broadcast. It hears the events since it came in their order, and in the
place of those that it was too slow for it hears how many they were.
-/
namespace Downlink

variable {E : Type}

/-- What was heard tells every event in its place, those that were missed by their number. -/
inductive Covers : List (Received E) → List E → Prop where
  | nil : Covers [] []
  | event {heard : List (Received E)} {events : List E} (event : E) (h : Covers heard events) :
      Covers (.event event :: heard) (event :: events)
  | lagged {heard : List (Received E)} {events : List E} (missed : List E)
      (h : Covers heard events) : Covers (.lagged missed.length :: heard) (missed ++ events)

theorem Covers.append {heard more : List (Received E)} {events later : List E}
    (h : Covers heard events) (h' : Covers more later) :
    Covers (heard ++ more) (events ++ later) := by
  induction h with
  | nil => exact h'
  | event event _ ih => exact .event event ih
  | lagged missed _ ih =>
    rw [List.append_assoc]
    exact .lagged missed ih

theorem covers_events (events : List E) : Covers (events.map .event) events := by
  induction events with
  | nil => exact .nil
  | cons event events ih => exact .event event ih

namespace Broadcast

variable {b : Broadcast E} {events : List E} {receiver behind : Nat}

structure Holds (b : Broadcast E) (events : List E) : Prop where
  published : b.published = events.length
  kept : b.kept = events.drop (events.length - b.room)

theorem new?_holds {capacity : Nat} (h : new? capacity = some b) :
    b.Holds [] ∧ b.receivers = [] ∧ b.closed = false := by
  unfold new? at h
  dsimp only at h
  split at h
  next => cases h
  next =>
    cases h
    exact ⟨⟨rfl, List.drop_nil.symm⟩, rfl, rfl⟩

theorem publish_closed (b : Broadcast E) (event : E) : (b.publish event).closed = b.closed := by
  unfold publish
  dsimp only
  split <;> rfl

theorem publish_receivers (b : Broadcast E) (event : E) :
    (b.publish event).receivers = b.receivers := by
  unfold publish
  dsimp only
  split <;> rfl

theorem Holds.publish (h : b.Holds events) (hc : b.closed = false) (event : E) :
    (b.publish event).Holds (events ++ [event]) := by
  have hnext : b.publish event =
      { b with
        published := b.published + 1
        kept := (b.kept ++ [event]).drop ((b.kept ++ [event]).length - b.room) } :=
    if_neg (by simp [hc])
  rw [hnext]
  constructor
  · simp [h.published]
  · have hlength : b.kept.length = events.length - (events.length - b.room) := by
      rw [h.kept, List.length_drop]
    have hkept : b.kept ++ [event] = (events ++ [event]).drop (events.length - b.room) := by
      rw [h.kept, List.drop_append_of_le_length (Nat.sub_le _ _)]
    dsimp only
    rw [hkept, List.drop_drop, List.length_drop, List.length_append, List.length_singleton]
    congr 1
    omega

theorem Holds.oldest_eq (h : b.Holds events) : b.oldest = events.length - b.room := by
  rw [oldest, h.published, h.kept, List.length_drop]
  omega

theorem Holds.kept_length (h : b.Holds events) : b.kept.length = events.length - b.oldest := by
  rw [h.oldest_eq, h.kept, List.length_drop]

/-- The receiver has that many events behind it. -/
def At (b : Broadcast E) (receiver behind : Nat) : Prop :=
  (b.receivers[receiver]?).join = some behind

def moveTo (b : Broadcast E) (receiver behind : Nat) : Broadcast E :=
  { b with receivers := b.receivers.set receiver (some behind) }

theorem Holds.moveTo (h : b.Holds events) (receiver behind : Nat) :
    (b.moveTo receiver behind).Holds events := ⟨h.published, h.kept⟩

theorem At.moveTo (h : b.At receiver behind) (next : Nat) :
    (b.moveTo receiver next).At receiver next := by
  obtain ⟨hlt, _⟩ := List.getElem?_eq_some_iff.mp (Option.join_eq_some_iff.mp h)
  simp [At, Broadcast.moveTo, List.getElem?_set_self hlt]

theorem moveTo_moveTo (b : Broadcast E) (receiver first last : Nat) :
    (b.moveTo receiver first).moveTo receiver last = b.moveTo receiver last := by
  simp [moveTo]

theorem At.moveTo_self (h : b.At receiver behind) : b.moveTo receiver behind = b := by
  obtain ⟨hlt, hget⟩ := List.getElem?_eq_some_iff.mp (Option.join_eq_some_iff.mp h)
  have hsame : b.receivers.set receiver (some behind) = b.receivers := by
    rw [← hget, List.set_getElem_self]
  rw [Broadcast.moveTo, hsame]

theorem receive_lagged (h : b.At receiver behind) (hb : behind < b.oldest) :
    b.receive receiver =
      (b.moveTo receiver b.oldest, some (.lagged (b.oldest - behind))) := by
  rw [At] at h
  rw [receive, h]
  exact if_pos hb

theorem Holds.receive_event (hb : b.Holds events) (h : b.At receiver behind)
    (ho : b.oldest ≤ behind) (hlt : behind < events.length) :
    b.receive receiver = (b.moveTo receiver (behind + 1), some (.event events[behind])) := by
  have hget : b.kept[behind - b.oldest]? = some events[behind] := by
    rw [hb.kept, List.getElem?_drop, ← hb.oldest_eq, Nat.add_sub_cancel' ho,
      List.getElem?_eq_getElem hlt]
  rw [At] at h
  simp only [receive, h, if_neg (Nat.not_lt.mpr ho), hget]
  rfl

theorem Holds.receive_end (hb : b.Holds events) (h : b.At receiver events.length) :
    b.receive receiver = (b, some (if b.closed then .closed else .empty)) := by
  have ho : b.oldest ≤ events.length := hb.oldest_eq ▸ Nat.sub_le _ _
  have hget : b.kept[events.length - b.oldest]? = none :=
    List.getElem?_eq_none (Nat.le_of_eq hb.kept_length)
  rw [At] at h
  simp only [receive, h, if_neg (Nat.not_lt.mpr ho), hget]

/-- Where nothing was missed, all that is left comes in order. -/
theorem Holds.drain_eq (hb : b.Holds events) (h : b.At receiver behind) (ho : b.oldest ≤ behind)
    (hle : behind ≤ events.length) {fuel : Nat} (hfuel : events.length - behind ≤ fuel) :
    b.drain receiver fuel =
      (b.moveTo receiver events.length, (events.drop behind).map .event) := by
  induction fuel generalizing b behind with
  | zero =>
    obtain rfl : behind = events.length := by omega
    rw [drain, h.moveTo_self, List.drop_length, List.map_nil]
  | succ fuel ih =>
    rcases Nat.lt_or_eq_of_le hle with hlt | rfl
    · have hrest := ih (hb.moveTo receiver (behind + 1)) (h.moveTo (behind + 1))
        (Nat.le_succ_of_le ho) hlt (by omega)
      rw [drain, hb.receive_event h ho hlt]
      dsimp only
      rw [hrest, moveTo_moveTo, List.drop_eq_getElem_cons hlt, List.map_cons]
    · rw [drain, hb.receive_end h, h.moveTo_self, List.drop_length, List.map_nil]
      cases b.closed <;> rfl

/-- A receiver gets all that there is for it: how much it missed, if it missed anything, and then
the events that are kept and it has not had, in order. -/
theorem Holds.receiveAll_eq (hb : b.Holds events) (h : b.At receiver behind)
    (hle : behind ≤ events.length) :
    b.receiveAll receiver =
      (b.moveTo receiver events.length,
        (if behind < b.oldest then [.lagged (b.oldest - behind)] else []) ++
          (events.drop (max behind b.oldest)).map .event) := by
  have hkept := hb.kept_length
  have holdest : b.oldest ≤ events.length := hb.oldest_eq ▸ Nat.sub_le _ _
  by_cases hlt : behind < b.oldest
  · have hrest := (hb.moveTo receiver b.oldest).drain_eq (h.moveTo b.oldest) (Nat.le_refl _)
      holdest (Nat.le_of_eq hkept.symm)
    rw [receiveAll, drain, receive_lagged h hlt]
    dsimp only
    rw [hrest, moveTo_moveTo, if_pos hlt, Nat.max_eq_right (Nat.le_of_lt hlt)]
    rfl
  · have ho := Nat.le_of_not_lt hlt
    rw [receiveAll, hb.drain_eq h ho hle (by omega), if_neg hlt, Nat.max_eq_left ho]
    rfl

theorem Holds.receiveAll_covers (hb : b.Holds events) (h : b.At receiver behind)
    (hle : behind ≤ events.length) :
    Covers (b.receiveAll receiver).2 (events.drop behind) := by
  rw [hb.receiveAll_eq h hle]
  by_cases hlt : behind < b.oldest
  · have holdest : b.oldest ≤ events.length := hb.oldest_eq ▸ Nat.sub_le _ _
    have hmissed : ((events.drop behind).take (b.oldest - behind)).length = b.oldest - behind := by
      rw [List.length_take, List.length_drop]
      omega
    have hsplit := List.take_append_drop (b.oldest - behind) (events.drop behind)
    rw [List.drop_drop, Nat.add_sub_cancel' (Nat.le_of_lt hlt)] at hsplit
    have hcovers := Covers.lagged ((events.drop behind).take (b.oldest - behind))
      (covers_events (events.drop b.oldest))
    rw [hmissed, hsplit] at hcovers
    rwa [if_pos hlt, Nat.max_eq_right (Nat.le_of_lt hlt)]
  · rw [if_neg hlt, Nat.max_eq_left (Nat.le_of_not_lt hlt)]
    exact covers_events _

/-- Since the receiver came, these events were published, and it has heard this of them. -/
def Serves (b : Broadcast E) (receiver : Nat) (told : List E) (heard : List (Received E)) : Prop :=
  ∃ before covered rest, told = covered ++ rest ∧ b.Holds (before ++ covered ++ rest) ∧
    b.At receiver (before ++ covered).length ∧ Covers heard covered

variable {told : List E} {heard : List (Received E)}

theorem Holds.addReceiver (h : b.Holds events) :
    b.addReceiver.1.Serves b.addReceiver.2 [] [] := by
  refine ⟨events, [], [], rfl, ?_, ?_, .nil⟩
  · rw [List.append_nil, List.append_nil]
    exact ⟨h.published, h.kept⟩
  · simp [At, Broadcast.addReceiver, h.published]

theorem Serves.publish (h : b.Serves receiver told heard) (hc : b.closed = false) (event : E) :
    (b.publish event).Serves receiver (told ++ [event]) heard := by
  obtain ⟨before, covered, rest, rfl, hholds, hat, hcovers⟩ := h
  have hnext := hholds.publish hc event
  rw [List.append_assoc] at hnext
  refine ⟨before, covered, rest ++ [event], List.append_assoc .., hnext, ?_, hcovers⟩
  rwa [At, publish_receivers]

theorem publishAll_induction {P : Broadcast E → List E → Prop}
    (step : ∀ {b events}, P b events → b.closed = false → ∀ event,
      P (b.publish event) (events ++ [event]))
    (h : P b events) (hc : b.closed = false) (more : List E) :
    P (b.publishAll more) (events ++ more) ∧ (b.publishAll more).closed = false := by
  induction more generalizing b events with
  | nil =>
    rw [List.append_nil]
    exact ⟨h, hc⟩
  | cons event more ih =>
    rw [List.append_cons]
    exact ih (step h hc event) ((b.publish_closed event).trans hc)

/-- A receiver that takes all it can has heard of everything since it came. -/
theorem Serves.receiveAll (h : b.Serves receiver told heard) :
    (b.receiveAll receiver).1.Serves receiver told (heard ++ (b.receiveAll receiver).2) ∧
      (b.receiveAll receiver).1.closed = b.closed ∧
      Covers (heard ++ (b.receiveAll receiver).2) told := by
  obtain ⟨before, covered, rest, rfl, hholds, hat, hcovers⟩ := h
  have hle : (before ++ covered).length ≤ (before ++ covered ++ rest).length := by
    simp only [List.length_append]
    exact Nat.le_add_right _ _
  have hrest := hholds.receiveAll_covers hat hle
  rw [List.drop_left] at hrest
  have hcovered := hcovers.append hrest
  have hall := hholds.receiveAll_eq hat hle
  refine ⟨⟨before, covered ++ rest, [], (List.append_nil _).symm, ?_, ?_, hcovered⟩, ?_, hcovered⟩
  · rw [hall, List.append_nil, ← List.append_assoc]
    exact hholds.moveTo _ _
  · rw [hall, ← List.append_assoc]
    exact hat.moveTo _
  · rw [hall]
    rfl

end Broadcast
end Downlink
