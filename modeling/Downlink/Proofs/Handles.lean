import Downlink.Proofs.Members
import Downlink.Proofs.Pairs
import Downlink.Proofs.Since

/-!
What subscribing returns. A handle is a topic and the id of a member, and the members of a link are
those whose handles are out: subscribing has returned them and they have not been given back since.
-/
namespace Downlink.Link

variable {l m : Link} {policy : Retry} {turns before mid after : List Turn} {turn later : Turn}
  {event : Event} {log : List Entry} {topic other : Topic} {id next : Nat}

/-- The turn, which comes after these, subscribes to the topic, and subscribing returns the id. -/
def Returns (policy : Retry) (topic : Topic) (id : Nat) (before : List Turn) (turn : Turn) : Prop :=
  turn.event = .subscribe topic ∧ ∃ m, Run policy before m ∧ (m.subscribe topic).2 = id

def IsOut (policy : Retry) (topic : Topic) (id : Nat) (turns : List Turn) : Prop :=
  Since (Returns policy topic id) (·.event = .unsubscribe topic id) turns

theorem returns_iff (h : Run policy turns l) :
    Returns policy topic id turns ⟨event, log⟩ ↔ event = .subscribe topic ∧ l.nextMember = id := by
  constructor
  · rintro ⟨rfl, m, hm, rfl⟩
    exact ⟨rfl, by rw [subscribe_id, h.eq hm]⟩
  · rintro ⟨rfl, rfl⟩
    exact ⟨rfl, l, h, subscribe_id l topic⟩

theorem mem_ids_step (l : Link) (event : Event) :
    id ∈ (l.step event).1.session.audience.ids topic ↔
      (event = .subscribe topic ∧ l.nextMember = id) ∨
        id ∈ l.session.audience.ids topic ∧ event ≠ .unsubscribe topic id := by
  rw [step_audience]
  cases event with
  | subscribe other => simp [Audience.mem_ids_join]
  | unsubscribe other member => simp [Audience.mem_ids_leave]
  | _ => simp

/-- The members are those whose handles are out. -/
theorem mem_ids_iff (h : Run policy turns l) :
    id ∈ l.session.audience.ids topic ↔ IsOut policy topic id turns := by
  induction h with
  | start =>
    have hnil : (start policy).session.audience.ids topic = [] := by cases topic <;> rfl
    simp [hnil, IsOut, not_since_nil]
  | @step turns l event hr ih =>
    rw [mem_ids_step, ih, IsOut, IsOut, since_append_singleton, returns_iff hr]

theorem Run.nextMember_le (hm : Run policy before m) (h : Run policy (before ++ after) l) :
    m.nextMember ≤ l.nextMember :=
  Run.later (P := fun _ l => m.nextMember ≤ l.nextMember) hm (Nat.le_refl _)
    (fun _ l event _ hle => Nat.le_trans hle (nextMember_le_step l event)) h

theorem Returns.lt (hr : Returns policy topic id before turn)
    (hn : Returns policy other next (before ++ turn :: mid) later) : id < next := by
  obtain ⟨hevent, m, hm, rfl⟩ := hr
  obtain ⟨-, m₁, hm₁, rfl⟩ := hn
  rw [subscribe_id, subscribe_id]
  obtain ⟨-, hjoined⟩ := hm.next hm₁
  rw [List.append_cons] at hm₁
  have hle := hjoined.nextMember_le hm₁
  rw [hevent, step_nextMember] at hle
  exact hle

/-- Each roster holds, once, the topics of its kind with the ids whose handles are out, no id is
returned twice, and nothing but subscribing and unsubscribing touches a roster. -/
theorem handles_are_members (h : Run policy turns l) :
    (∀ topic id, (topic, id) ∈ l.session.audience.outputs.pairs ↔
        IsOut policy (.output topic) id turns) ∧
      (∀ cycler id, (cycler, id) ∈ l.session.audience.images.pairs ↔
        IsOut policy (.image cycler) id turns) ∧
      (∀ path id, (path, id) ∈ l.session.audience.parameters.pairs ↔
        IsOut policy (.parameter path) id turns) ∧
      l.session.audience.outputs.pairs.Nodup ∧ l.session.audience.images.pairs.Nodup ∧
      l.session.audience.parameters.pairs.Nodup ∧
      (∀ before turn mid later after, turns = before ++ turn :: (mid ++ later :: after) →
        ∀ topic id other next, Returns policy topic id before turn →
          Returns policy other next (before ++ turn :: mid) later → id < next) ∧
      ∀ event, (∀ topic, event ≠ .subscribe topic) → (∀ topic id, event ≠ .unsubscribe topic id) →
        (l.step event).1.session.audience = l.session.audience := by
  obtain ⟨houtputs, himages, hparameters⟩ := (run_invariant h).session.audience
  have honce := (run_seated h).once
  have hids : ∀ topic id, id ∈ l.session.audience.ids topic ↔ IsOut policy topic id turns :=
    fun _ _ => mem_ids_iff h
  refine ⟨?_, ?_, ?_, ?_, ?_, ?_, ?_, ?_⟩
  · intro topic id
    rw [Roster.mem_pairs_iff houtputs]
    exact hids (.output topic) id
  · intro cycler id
    rw [Roster.mem_pairs_iff himages]
    exact hids (.image cycler) id
  · intro path id
    rw [Roster.mem_pairs_iff hparameters]
    exact hids (.parameter path) id
  · exact Roster.pairs_nodup houtputs fun topic => honce (.output topic)
  · exact Roster.pairs_nodup himages fun cycler => honce (.image cycler)
  · exact Roster.pairs_nodup hparameters fun path => honce (.parameter path)
  · intro before turn mid later after _ topic id other next hr hn
    exact hr.lt hn
  · intro event hs hu
    rw [step_audience]
    cases event with
    | subscribe topic => exact absurd rfl (hs topic)
    | unsubscribe topic id => exact absurd rfl (hu topic id)
    | _ => rfl

def ball : OutputTopic := ⟨"c", .main, "ball"⟩

/-- An output has two members when its demand is refused, an image and a parameter of one name get a
member each, and the first member of the output leaves. After the loss of the connection a text
comes that is none, and what is given back is no handle: topic and id belong to two of them. -/
def turnover : List Event :=
  [.subscribe (.output ball), .subscribe (.output ball), .want true, .url "ws://a", .opened 1,
    .text 1 "\x7b\"id\":0,\"ok\":true,\"output_hierarchy\":\x7b\x7d\x7d",
    .text 1 "\x7b\"id\":1,\"ok\":true,\"parameter_hierarchy\":\x7b\x7d\x7d",
    .text 1 "\x7b\"id\":2,\"ok\":false\x7d", .subscribe (.image "c"), .subscribe (.parameter "c"),
    .unsubscribe (.output ball) 1, .closed 1, .elapsed, .opened 2, .text 2 "[",
    .unsubscribe (.parameter "c") 3]

theorem handles_are_members_turnover :
    IsOut .standard (.output ball) 2 (play .standard turnover).1 ∧
      ¬ IsOut .standard (.output ball) 1 (play .standard turnover).1 ∧
      IsOut .standard (.image "c") 3 (play .standard turnover).1 ∧
      ¬ IsOut .standard (.parameter "c") 3 (play .standard turnover).1 ∧
      IsOut .standard (.parameter "c") 4 (play .standard turnover).1 := by
  obtain ⟨houtputs, himages, hparameters, _⟩ :=
    handles_are_members (run_play .standard turnover)
  rw [← houtputs, ← houtputs, ← himages, ← hparameters, ← hparameters]
  decide +kernel

end Downlink.Link
