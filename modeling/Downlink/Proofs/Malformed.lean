import Downlink.Proofs.Images
import Downlink.Proofs.Listeners
import Downlink.Proofs.Pushes
import Downlink.Proofs.Since

/-!
What is no message. A text that cannot be read is told to those who listen for faults and does
nothing else, however much of it is in order, and a frame without a whole header does nothing at
all.
-/
namespace Downlink

def Fault.isParse : Fault → Bool
  | .json _ | .missingField _ | .unexpectedFormat _ => true
  | _ => false

namespace Message

/-- The ways in which a text is no message, each with its fault. -/
inductive Malformed (text : String) : Fault → Prop where
  | grammar (h : Json.read? text = none) : Malformed text (.json .grammar)
  | noObject {value} (h : Json.read? text = some value) (hv : ∀ members, value ≠ .obj members) :
      Malformed text (.unexpectedFormat ("expected a JSON object, got " ++ value.write))
  | reply {members} (h : Json.read? text = some (.obj members))
      (hid : (Table.get? "id" members).isSome) (hr : Reply.ofMembers? members = none) :
      Malformed text (.json .shape)
  | push {members} (h : Json.read? text = some (.obj members))
      (hid : Table.get? "id" members = none) (hp : Push.ofMembers? members = none) :
      Malformed text (.json .shape)

variable {text : String} {fault : Fault} {members : List (String × Json)} {items : List Json}
  {item : Json}

theorem read_eq_error_iff : Message.read text = .error fault ↔ Malformed text fault := by
  constructor
  · intro h
    cases hread : Json.read? text with
    | none =>
      rw [Message.read, hread] at h
      cases h
      exact .grammar hread
    | some value =>
      cases value with
      | obj members =>
        cases hid : Table.get? "id" members with
        | none =>
          rw [read_of_no_id hread hid] at h
          cases hp : Push.ofMembers? members with
          | none =>
            rw [hp] at h
            cases h
            exact .push hread hid hp
          | some found => simp [hp] at h
        | some id =>
          have hsome : (Table.get? "id" members).isSome := by rw [hid]; rfl
          rw [read_of_id hread hsome] at h
          cases hr : Reply.ofMembers? members with
          | none =>
            rw [hr] at h
            cases h
            exact .reply hread hsome hr
          | some found => simp [hr] at h
      | _ =>
        rw [read_of_no_object hread (by simp)] at h
        cases h
        exact .noObject hread (by simp)
  · intro h
    cases h with
    | grammar h => rw [Message.read, h]
    | noObject h hv => exact read_of_no_object h hv
    | reply h hid hr => rw [read_of_id h hid, hr]
    | push h hid hp => rw [read_of_no_id h hid, hp]

theorem Malformed.isParse (h : Malformed text fault) : fault.isParse = true := by
  cases h <;> rfl

/-- One bad entry spoils a push, wherever it stands and whatever stands beside it. -/
theorem malformed_of_reading (h : Json.read? text = some (.obj members))
    (hid : Table.get? "id" members = none)
    (htype : Table.get? "type" members = some (.str "OutputsUpdated"))
    (hitems : Table.get? "outputs" members = some (.arr items)) (hm : item ∈ items)
    (hi : Reading.ofJson? item = none) : Malformed text (.json .shape) := by
  refine .push h hid (Option.eq_none_iff_forall_ne_some.mpr fun found hp => ?_)
  have hconforms := Push.ofMembers?_eq_some_iff.mp hp
  obtain ⟨reading, hform⟩ := hconforms.each_entry htype hitems item hm
  rw [Reading.ofJson?_eq_some_iff.mpr hform] at hi
  cases hi

end Message

namespace Link

variable {l : Link} {policy : Retry} {turns : List Turn} {event : Event} {listener : Nat}

def Event.isListen : Event → Bool
  | .listenStatus | .listenFaults => true
  | _ => false

def listens (turns : List Turn) : Nat := turns.countP (·.event.isListen)

/-- The listener has come to hear of faults and has not been removed since. Those who come are
numbered from 1. -/
def HearsFaults (listener : Nat) (turns : List Turn) : Prop :=
  Since (fun before turn => turn.event = .listenFaults ∧ listener = listens before + 1)
    (·.event = .unlisten listener) turns

theorem mem_faultListeners_step :
    listener ∈ (l.step event).1.faultListeners ↔
      event = .listenFaults ∧ listener = l.nextListener ∨
        listener ∈ l.faultListeners ∧ event ≠ .unlisten listener := by
  obtain ⟨_, _, _, hlisteners⟩ := step_registers l event
  rw [hlisteners]
  cases event with
  | listenFaults => simp [or_comm]
  | unlisten other => simp [@eq_comm _ other]
  | _ => simp

structure FaultListeners (turns : List Turn) (l : Link) : Prop where
  next : l.nextListener = listens turns + 1
  below : ∀ listener ∈ l.faultListeners, listener < l.nextListener
  once : l.faultListeners.Nodup
  hears : ∀ listener, listener ∈ l.faultListeners ↔ HearsFaults listener turns

theorem start_faultListeners (policy : Retry) : FaultListeners [] (start policy) where
  next := rfl
  below := by simp [start]
  once := List.nodup_nil
  hears := by simp [start, HearsFaults, not_since_nil]

theorem FaultListeners.step (h : FaultListeners turns l) (event : Event) (log : List Entry) :
    FaultListeners (turns ++ [⟨event, log⟩]) (l.step event).1 where
  next := by
    rw [(step_listeners l event).2, listens, List.countP_append, ← listens]
    cases event <;> simp [h.next, Event.isListen]
  below := by
    intro listener hm
    rcases mem_faultListeners_step.mp hm with ⟨rfl, rfl⟩ | ⟨hm, _⟩
    · exact Nat.lt_succ_self _
    · exact Nat.lt_of_lt_of_le (h.below listener hm) (nextListener_le_step l event)
  once := by
    obtain ⟨_, _, _, hlisteners⟩ := step_registers l event
    rw [hlisteners]
    cases event with
    | listenFaults =>
      have hnew : l.nextListener ∉ l.faultListeners := fun hm => Nat.lt_irrefl _ (h.below _ hm)
      exact List.nodup_middle.mpr (by simpa [hnew] using h.once)
    | unlisten other => exact h.once.filter _
    | _ => exact h.once
  hears := by
    intro listener
    rw [mem_faultListeners_step, h.hears, h.next, HearsFaults, HearsFaults, since_append_singleton]

theorem run_faultListeners (h : Run policy turns l) : FaultListeners turns l := by
  induction h with
  | start => exact start_faultListeners policy
  | step event _ ih => exact ih.step event _

/-- A text that is no message is told, each by one word, to those who listen for faults. It leaves
the link as it is, does nothing with what is in order in it, and asks for nothing. A frame without a
whole header is not even told of. -/
theorem malformed_changes_nothing (h : Run policy turns l) :
    (∀ socket text fault, l.accepts socket = true → Message.read text = .error fault →
      fault.isParse = true ∧
        l.step (.text socket text) = (l, l.faultListeners.map (.fault · fault))) ∧
      (∀ text members items item, Json.read? text = some (.obj members) →
        Table.get? "id" members = none →
        Table.get? "type" members = some (.str "OutputsUpdated") →
        Table.get? "outputs" members = some (.arr items) →
        item ∈ items → Reading.ofJson? item = none →
        Message.read text = .error (.json .shape)) ∧
      l.faultListeners.Nodup ∧
      (∀ listener, listener ∈ l.faultListeners ↔ HearsFaults listener turns) ∧
      ∀ socket bytes, bytes.length < 8 → l.step (.frame socket bytes) = (l, []) := by
  obtain ⟨_, _, honce, hhears⟩ := run_faultListeners h
  refine ⟨?_, ?_, honce, hhears, ?_⟩
  · intro socket text fault ha hread
    refine ⟨(Message.read_eq_error_iff.mp hread).isParse, ?_⟩
    apply (run_invariant h).step_text_fault ha
    rw [Session.onText, hread]
  · intro text members items item hread hid htype hitems hm hi
    exact Message.read_eq_error_iff.mpr
      (Message.malformed_of_reading hread hid htype hitems hm hi)
  · intro socket bytes hshort
    have hframe : l.session.onFrame bytes = (l.session, .none) := by
      have hbytes : Frame.ofBytes bytes = .error (.frameTooShort bytes.length) := if_pos hshort
      rw [Session.onFrame, hbytes]
    by_cases ha : l.accepts socket = true
    · simp [step, onFrame, ha, hframe]
    · simp [step, onFrame, ha]

/-- Of two listeners the first is gone, an output has a member, both schemas are in, and a frame
waits for its announcement. -/
def attending : List Event :=
  [.listenFaults, .listenFaults, .unlisten 1, .subscribe (.output ⟨"c", .main, "x"⟩), .want true,
    .url "ws://a", .opened 1,
    .text 1 "\x7b\"id\":0,\"ok\":true,\"output_hierarchy\":\x7b\x7d\x7d",
    .text 1 "\x7b\"id\":1,\"ok\":true,\"parameter_hierarchy\":\x7b\x7d\x7d",
    .frame 1 [0, 0, 0, 0, 5, 0, 0, 0, 7]]

def spoilt : String :=
  "\x7b\"type\":\"OutputsUpdated\",\"cycler\":\"c\",\"image_id\":5,\"outputs\":[" ++
    "\x7b\"output\":\x7b\"type\":\"Main\",\"path\":\"x\"\x7d,\"data\":1\x7d," ++
    "\x7b\"output\":\x7b\"type\":\"Main\"\x7d,\"data\":1\x7d]\x7d"

theorem malformed_changes_nothing_spoilt :
    (play .standard attending).2.session.images = ⟨[(5, [7])], []⟩ ∧
      (play .standard attending).2.step (.text 1 spoilt) =
        ((play .standard attending).2, [.fault 2 (.json .shape)]) ∧
      (play .standard attending).2.step (.frame 1 [0, 0, 0, 0, 5, 0, 0]) =
        ((play .standard attending).2, []) := by
  obtain ⟨htexts, _, _, _, hframes⟩ := malformed_changes_nothing (run_play .standard attending)
  have hread : Message.read spoilt = .error (.json .shape) := by decide +kernel
  obtain ⟨himages, ha, hlisteners⟩ :
      (play .standard attending).2.session.images = ⟨[(5, [7])], []⟩ ∧
        (play .standard attending).2.accepts 1 = true ∧
        (play .standard attending).2.faultListeners = [2] := by decide +kernel
  obtain ⟨_, hstep⟩ := htexts 1 spoilt _ ha hread
  rw [hlisteners] at hstep
  exact ⟨himages, hstep, hframes 1 _ (by decide)⟩

end Link
end Downlink
