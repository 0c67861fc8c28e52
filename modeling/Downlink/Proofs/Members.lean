import Downlink.Proofs.Barrier

/-!
The members of a link. A member has an id that no other one has had, it stands once under one topic,
and from joining to leaving nothing that happens to the link moves it.
-/
namespace Downlink

def Call.isData : Call → Bool
  | .value _ _ _ | .image _ _ _ => true
  | _ => false

namespace Session

variable {s : Session}

/-- Nobody joins or leaves, no image half is touched, and nothing is handed out. -/
structure Rests (s : Session) (result : Session × Effects) : Prop where
  audience : result.1.audience = s.audience
  images : result.1.images = s.images
  calls : ∀ call ∈ result.2.calls, call.isData = false

theorem Rests.andThen {result : Session × Effects} {next : Session → Session × Effects}
    (h : s.Rests result) (h' : result.1.Rests (next result.1)) : s.Rests (andThen result next) where
  audience := h'.audience.trans h.audience
  images := h'.images.trans h.images
  calls := by
    intro call hm
    rcases List.mem_append.mp hm with hm | hm
    · exact h.calls call hm
    · exact h'.calls call hm

theorem advance_rests (s : Session) : s.Rests s.advance := by
  by_cases hr : s.Ready
  · by_cases hq : s.queue = []
    · rw [advance_of_empty hr hq]
      exact ⟨rfl, rfl, by simp [entering_calls]⟩
    · rw [advance_of_queue hr hq]
      exact ⟨rfl, rfl, by simp [entering_calls]⟩
  · rw [advance_of_not_ready hr]
    exact ⟨rfl, rfl, by simp⟩

theorem finishFetching_rests (s : Session) : s.Rests s.finishFetching := by
  unfold finishFetching
  split
  · have h := advance_rests { s with queue := Demand.sort (s.audience.topics.map (⟨true, ·⟩)) }
    exact ⟨h.audience, h.images, h.calls⟩
  · exact ⟨rfl, rfl, by simp⟩

theorem demand_rests (s : Session) (change : Demand) : s.Rests (s.demand change) := by
  unfold demand
  split
  · have h := advance_rests (s.plan change)
    rw [plan_eq] at h ⊢
    exact ⟨h.audience, h.images, h.calls⟩
  · exact ⟨rfl, rfl, by simp⟩

theorem update_rests (s : Session) (tag : Nat) (path : String) (value : Json) :
    s.Rests (s.update tag path value) := by
  unfold update
  split
  · exact ⟨rfl, rfl, by simp [send]⟩
  · exact ⟨rfl, rfl, by simp [Call.isData]⟩

theorem onAnswer_rests (s : Session) (reply : Reply) (awaited : Awaited) :
    s.Rests (s.onAnswer reply awaited) := by
  cases awaited with
  | outputSchema | parameterSchema =>
    simp only [onAnswer]
    refine Rests.andThen ⟨rfl, rfl, ?_⟩ (finishFetching_rests _)
    simp [schemaEffects_calls]
  | demand demand =>
    simp only [onAnswer]
    refine Rests.andThen ⟨rfl, rfl, ?_⟩ (advance_rests _)
    intro call hm
    dsimp only at hm
    split at hm
    · cases hm
    · obtain ⟨id, _, rfl⟩ := List.mem_map.mp hm
      rfl
  | update tag =>
    simp only [onAnswer]
    refine Rests.andThen ⟨rfl, rfl, ?_⟩ (advance_rests _)
    intro call hm
    rw [List.mem_singleton.mp hm]
    split <;> rfl

/-- Replies hand out nothing. -/
theorem onReply_rests (s : Session) (reply : Reply) : s.Rests (s.onReply reply) := by
  unfold onReply
  split
  · exact ⟨rfl, rfl, by simp⟩
  next awaited _ =>
    have h := onAnswer_rests { s with awaited := Table.erase reply.id s.awaited } reply awaited
    exact ⟨h.audience, h.images, h.calls⟩

theorem onSocket_audience (s : Session) (status : Status) :
    (s.onSocket status).1.audience = s.audience := by
  rcases s.onSocket_cases status with ⟨rfl, ho⟩ | ⟨hsame, _⟩ | ⟨hs, ho⟩
  · rw [onSocket_connected ho]
  · rw [hsame]
  · rw [onSocket_lost hs ho]

/-- Nothing is handed out, and image halves stay or are given up together. -/
structure Withholds (s : Session) (result : Session × Effects) : Prop where
  images : result.1.images = s.images ∨ result.1.images = .empty
  calls : ∀ call ∈ result.2.calls, call.isData = false

theorem Withholds.andThen {result : Session × Effects} {next : Session → Session × Effects}
    (h : s.Withholds result) (h' : result.1.Withholds (next result.1)) :
    s.Withholds (andThen result next) where
  images := by
    rcases h'.images with hi | hi
    · rcases h.images with hi' | hi'
      · exact Or.inl (hi.trans hi')
      · exact Or.inr (hi.trans hi')
    · exact Or.inr hi
  calls := by
    intro call hm
    rcases List.mem_append.mp hm with hm | hm
    · exact h.calls call hm
    · exact h'.calls call hm

theorem Rests.withholds {result : Session × Effects} (h : s.Rests result) : s.Withholds result :=
  ⟨Or.inl h.images, h.calls⟩

theorem onSocket_withholds (s : Session) (status : Status) : s.Withholds (s.onSocket status) := by
  refine ⟨?_, by simp [onSocket_calls]⟩
  rcases s.onSocket_cases status with ⟨rfl, ho⟩ | ⟨hsame, _⟩ | ⟨hs, ho⟩
  · rw [onSocket_connected ho]
    exact Or.inl rfl
  · rw [hsame]
    exact Or.inl rfl
  · rw [onSocket_lost hs ho]
    exact Or.inr rfl

/-- Only what is heard can hand anything out. -/
theorem respond_withholds {input : Input} (h : input.isHeard = false) :
    s.Withholds (s.respond input) := by
  cases input with
  | socket status => exact onSocket_withholds s status
  | demand change => exact (demand_rests s change).withholds
  | update tag path value => exact (update_rests s tag path value).withholds
  | text | frame => cases h
  | join | leave => exact ⟨Or.inl rfl, by simp [respond]⟩

theorem feed_withholds {inputs : List Input} (h : ∀ input ∈ inputs, input.isHeard = false) :
    s.Withholds (s.feed inputs) :=
  feed_induction (fun _ => ⟨Or.inl rfl, by simp⟩) Withholds.andThen
    (fun input hm _ => respond_withholds (h input hm)) s

theorem onText_audience (s : Session) (text : String) :
    (s.onText text).1.audience = s.audience := by
  rcases onText_cases s text with ⟨fault, _, ht⟩ | ⟨reply, _, ht⟩ | ⟨push, images, calls, _, ht⟩
  · rw [ht]
  · rw [ht]
    exact (onReply_rests s reply).audience
  · rw [ht]

theorem respond_audience (s : Session) (input : Input) :
    (s.respond input).1.audience =
      match input with
      | .join topic id => (s.audience.join topic id).1
      | .leave topic id => (s.audience.leave topic id).1
      | _ => s.audience := by
  cases input with
  | socket status => exact onSocket_audience s status
  | demand change => exact (demand_rests s change).audience
  | update tag path value => exact (update_rests s tag path value).audience
  | text text => exact onText_audience s text
  | frame bytes =>
    obtain ⟨images, calls, hf⟩ := onFrame_quiet s bytes
    rw [respond, hf]
  | join | leave => rfl

end Session

namespace Link

variable {l : Link} {policy : Retry} {turns : List Turn} {event : Event}

def heeds (l : Link) : Event → Bool
  | .text socket _ | .frame socket _ => l.accepts socket
  | _ => false

theorem reaction_withholds (h : l.heeds event = false) :
    l.session.Withholds (l.reaction event) := by
  apply Session.feed_withholds
  cases event with
  | text socket text | frame socket bytes =>
    have ha : l.accepts socket = false := h
    simp [inputs, ha]
  | subscribe topic =>
    by_cases hf : (l.session.join topic l.nextMember).2 <;>
      simp [inputs, hf, Session.Input.isHeard]
  | unsubscribe topic id =>
    by_cases hl : (l.session.leave topic id).2 = some true <;>
      simp [inputs, hl, Session.Input.isHeard]
  | _ => simp [inputs, Event.toDialer?, Session.Input.isHeard]

/-- Ids are given in turn, an id stands at most once under a topic, and under no other one. -/
structure Seated (l : Link) : Prop where
  below : ∀ topic, ∀ id ∈ l.session.audience.ids topic, id < l.nextMember
  once : ∀ topic, (l.session.audience.ids topic).Nodup
  apart : ∀ id topic other, id ∈ l.session.audience.ids topic →
    id ∈ l.session.audience.ids other → other = topic

theorem start_seated (policy : Retry) : (start policy).Seated := by
  have hn : ∀ topic, (start policy).session.audience.ids topic = [] := by
    intro topic
    cases topic <;> rfl
  constructor <;> simp [hn]

theorem step_nextMember (l : Link) (event : Event) :
    (l.step event).1.nextMember =
      match event with
      | .subscribe _ => l.nextMember + 1
      | _ => l.nextMember := (step_registers l event).1

theorem nextMember_le_step (l : Link) (event : Event) :
    l.nextMember ≤ (l.step event).1.nextMember := by
  rw [step_nextMember]
  split <;> omega

theorem subscribe_id (l : Link) (topic : Topic) : (l.subscribe topic).2 = l.nextMember := by
  unfold subscribe
  dsimp only
  split <;> rfl

/-- Members come and go with the two events that are meant for it, and with no other. -/
theorem step_audience (l : Link) (event : Event) :
    (l.step event).1.session.audience =
      match event with
      | .subscribe topic => (l.session.audience.join topic l.nextMember).1
      | .unsubscribe topic id => (l.session.audience.leave topic id).1
      | _ => l.session.audience := by
  rw [step_session, reaction]
  cases event with
  | want | url | opened | closed | elapsed | update =>
    simp only [inputs, Event.toDialer?, Session.feed_singleton, Session.respond_audience]
  | text socket text | frame socket bytes =>
    by_cases ha : l.accepts socket
    · simp only [inputs, ha, if_true, Session.feed_singleton, Session.respond_audience]
    · simp only [inputs, ha]
      rfl
  | subscribe topic =>
    by_cases hf : (l.session.join topic l.nextMember).2 <;>
      simp [inputs, hf, Session.feed, Session.respond_audience]
  | unsubscribe topic id =>
    by_cases hl : (l.session.leave topic id).2 = some true <;>
      simp [inputs, hl, Session.feed, Session.respond_audience]
  | fault | listenStatus | listenFaults | unlisten => rfl

theorem step_ids (h : l.Seated) (event : Event) :
    (l.step event).1.session.audience.ids =
      match event with
      | .subscribe topic =>
        Function.update l.session.audience.ids topic
          (l.session.audience.ids topic ++ [l.nextMember])
      | .unsubscribe topic id =>
        Function.update l.session.audience.ids topic
          ((l.session.audience.ids topic).filter (· ≠ id))
      | _ => l.session.audience.ids := by
  rw [step_audience]
  cases event with
  | subscribe topic =>
    have hfresh : l.nextMember ∉ l.session.audience.ids topic := by
      intro hm
      exact Nat.lt_irrefl _ (h.below topic _ hm)
    exact Audience.ids_join hfresh
  | unsubscribe topic id => exact Audience.ids_leave topic id
  | _ => rfl

theorem Seated.of_sublist (h : l.Seated) {m : Link} (hn : m.nextMember = l.nextMember)
    (hs : ∀ topic, (m.session.audience.ids topic).Sublist (l.session.audience.ids topic)) :
    m.Seated where
  below := by
    intro topic id hm
    rw [hn]
    exact h.below topic id ((hs topic).subset hm)
  once := by
    intro topic
    exact (h.once topic).sublist (hs topic)
  apart := by
    intro id topic other hm ho
    exact h.apart id topic other ((hs topic).subset hm) ((hs other).subset ho)

theorem Seated.of_join (h : l.Seated) {m : Link} {topic : Topic}
    (hn : m.nextMember = l.nextMember + 1)
    (hids : m.session.audience.ids = Function.update l.session.audience.ids topic
      (l.session.audience.ids topic ++ [l.nextMember])) : m.Seated := by
  have hmem : ∀ id other, id ∈ m.session.audience.ids other ↔
      id ∈ l.session.audience.ids other ∨ id = l.nextMember ∧ other = topic := by
    intro id other
    rw [hids]
    by_cases ho : other = topic
    · subst ho
      simp
    · simp [ho]
  constructor
  · intro other id hm
    rcases (hmem id other).mp hm with hm | ⟨rfl, _⟩
    · have hlt := h.below other id hm
      omega
    · omega
  · intro other
    rw [hids]
    by_cases ho : other = topic
    · subst ho
      rw [Function.update_self, List.nodup_append]
      refine ⟨h.once other, List.nodup_singleton _, ?_⟩
      intro id hm new hnew he
      have hlt := h.below other id hm
      rw [List.mem_singleton] at hnew
      omega
    · rw [Function.update_of_ne ho]
      exact h.once other
  · intro id first second hf hs
    rcases (hmem id first).mp hf with hf | ⟨rfl, rfl⟩
    · rcases (hmem id second).mp hs with hs | ⟨rfl, _⟩
      · exact h.apart id first second hf hs
      · exact absurd (h.below first _ hf) (Nat.lt_irrefl _)
    · rcases (hmem _ second).mp hs with hs | ⟨_, hs⟩
      · exact absurd (h.below second _ hs) (Nat.lt_irrefl _)
      · exact hs

theorem step_preserves_seated (h : l.Seated) (event : Event) : (l.step event).1.Seated := by
  have hids := step_ids h event
  have hn := step_nextMember l event
  cases event with
  | subscribe topic => exact h.of_join hn hids
  | unsubscribe topic id =>
    dsimp only at hids
    apply h.of_sublist hn
    intro other
    rw [hids]
    by_cases ho : other = topic
    · subst ho
      rw [Function.update_self]
      exact List.filter_sublist
    · rw [Function.update_of_ne ho]
  | _ =>
    apply h.of_sublist hn
    intro other
    rw [hids]

theorem run_seated (h : Run policy turns l) : l.Seated := by
  induction h with
  | start => exact start_seated policy
  | step event _ ih => exact step_preserves_seated ih event

end Link
end Downlink
