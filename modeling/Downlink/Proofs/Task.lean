import Downlink.Proofs.Link
import Downlink.Proofs.Since
import Downlink.Station.Task

/-!
Runs of a task, and what it has taken from its surroundings. Sockets and timers begin with an effect
of the task and end with another one or with a report; at any time the task knows which of them
last.
-/
namespace Downlink.Task

variable {t : Task} {policy : Retry}

/-- All that can reach a task. It is deserted once nobody is left who could command it. -/
inductive Input where
  | command (command : Command)
  | report (report : Report)
  | deserted
  deriving DecidableEq, Repr

def act (t : Task) : Input → Task × List Effect
  | .command command => (t.command command).1
  | .report report => t.report report
  | .deserted => if t.running then t.takeDown else (t, [])

structure Turn where
  input : Input
  effects : List Effect
  deriving DecidableEq, Repr

/-- A report may come at any time, so also one of a timer that was cancelled before. -/
inductive Run (policy : Retry) : List Turn → Task → Prop where
  | start : Run policy [] (.new policy)
  | act {turns t} (input : Input) : Run policy turns t →
      Run policy (turns ++ [⟨input, (t.act input).2⟩]) (t.act input).1

def play (policy : Retry) (inputs : List Input) : List Turn × Task :=
  inputs.foldl (fun run input => (run.1 ++ [⟨input, (run.2.act input).2⟩], (run.2.act input).1))
    ([], .new policy)

theorem run_play (policy : Retry) (inputs : List Input) :
    Run policy (play policy inputs).1 (play policy inputs).2 := by
  induction inputs using List.reverseRecOn with
  | nil => exact .start
  | append_singleton inputs input ih =>
    rw [play, List.foldl_append]
    exact .act input ih

theorem Run.nil (h : Run policy [] t) : t = .new policy := by
  generalize hall : [] = all at h
  cases h with
  | start => rfl
  | act => simp at hall

theorem Run.last {turns : List Turn} {turn : Turn} (h : Run policy (turns ++ [turn]) t) :
    ∃ t₀, Run policy turns t₀ ∧ turn = ⟨turn.input, (t₀.act turn.input).2⟩ ∧
      t = (t₀.act turn.input).1 := by
  generalize hall : turns ++ [turn] = all at h
  cases h with
  | start => simp at hall
  | @act earlier t₀ input h₀ =>
    obtain ⟨rfl, hturn⟩ := List.append_inj' hall rfl
    cases hturn
    exact ⟨t₀, h₀, rfl, rfl⟩

theorem Run.eq {turns : List Turn} {u : Task} (h : Run policy turns t) (hu : Run policy turns u) :
    t = u := by
  induction h generalizing u with
  | start => exact hu.nil.symm
  | act input _ ih =>
    obtain ⟨u₀, hu₀, _, rfl⟩ := hu.last
    rw [ih hu₀]

theorem Run.before {turns after : List Turn} (h : Run policy (turns ++ after) t) :
    ∃ t₀, Run policy turns t₀ := by
  induction after using List.reverseRecOn generalizing t with
  | nil => exact ⟨t, by simpa using h⟩
  | append_singleton after turn ih =>
    rw [← List.append_assoc] at h
    obtain ⟨t₀, h₀, _⟩ := h.last
    exact ih h₀

theorem Run.next {turns after : List Turn} {turn : Turn} {u : Task} (ht : Run policy turns t)
    (h : Run policy (turns ++ turn :: after) u) :
    turn.effects = (t.act turn.input).2 ∧ Run policy (turns ++ [turn]) (t.act turn.input).1 := by
  rw [List.append_cons] at h
  obtain ⟨_, hturn⟩ := h.before
  obtain ⟨t₀, ht₀, hlast, rfl⟩ := hturn.last
  obtain rfl := ht.eq ht₀
  exact ⟨congrArg Turn.effects hlast, hturn⟩

/-! What one input can do. -/

def Input.ends : Input → Bool
  | .command .shutdown | .deserted => true
  | _ => false

def event? (t : Task) : Input → Option Link.Event
  | .command (.want wanted) => some (.want wanted)
  | .command (.url url) => some (.url url)
  | .command (.subscribe topic) => some (.subscribe topic)
  | .command (.unsubscribe topic id) => some (.unsubscribe topic id)
  | .command (.update path value) => some (.update t.updates path value)
  | .report (.opened socket) => some (.opened socket)
  | .report (.text socket text) => some (.text socket text)
  | .report (.frame socket bytes) => some (.frame socket bytes)
  | .report (.failed socket fault) => some (.fault socket fault)
  | .report (.closed socket) => some (.closed socket)
  | .report (.elapsed timer) => if t.timer = some timer then some .elapsed else none
  | .command (.types _) | .command .shutdown | .deserted => none

def noted (t : Task) : Input → Task
  | .command (.update _ _) => { t with updates := t.updates + 1 }
  | .report (.closed socket) => { t with sockets := t.sockets.filter (· ≠ socket) }
  | .report (.elapsed _) => { t with timer := none }
  | _ => t

inductive Acted (t : Task) (input : Input) : Task × List Effect → Prop where
  | rests (h : t.running = true → input.ends = false ∧ t.event? input = none) :
      Acted t input (t, [])
  | follows {event} (hr : t.running = true) (he : t.event? input = some event) :
      Acted t input ((t.noted input).follow (t.link.step event))
  | ends (hr : t.running = true) (he : input.ends = true) : Acted t input t.takeDown

theorem act_of_stopped (h : t.running = false) (input : Input) : t.act input = (t, []) := by
  cases input <;> simp [act, command, report, h]

theorem event?_elapsed {timer : Nat} {event : Link.Event}
    (he : t.event? (.report (.elapsed timer)) = some event) :
    t.timer = some timer ∧ event = .elapsed := by
  by_cases ht : t.timer = some timer
  · rw [event?, if_pos ht] at he
    exact ⟨ht, (Option.some.inj he).symm⟩
  · rw [event?, if_neg ht] at he
    cases he

theorem event?_elapsed_eq_none {timer : Nat}
    (hn : t.event? (.report (.elapsed timer)) = none) : t.timer ≠ some timer := by
  intro ht
  rw [event?, if_pos ht] at hn
  cases hn

theorem act_of_event {input : Input} {event : Link.Event} (hr : t.running = true)
    (he : t.event? input = some event) :
    t.act input = (t.noted input).follow (t.link.step event) := by
  cases input with
  | command command =>
    cases command <;> cases he <;> simp [act, Task.command, hr, noted, Link.step]
  | report report =>
    cases report with
    | elapsed timer =>
      obtain ⟨ht, rfl⟩ := event?_elapsed he
      simp [act, Task.report, hr, ht, noted]
    | opened | text | frame | failed | closed =>
      cases he
      simp [act, Task.report, hr, noted]
  | deserted => cases he

theorem act_of_ends {input : Input} (hr : t.running = true) (he : input.ends = true) :
    t.act input = t.takeDown := by
  cases input with
  | command command =>
    cases command with
    | shutdown => simp [act, Task.command, hr]
    | _ => cases he
  | report => cases he
  | deserted => simp [act, hr]

theorem act_of_idle {input : Input} (he : input.ends = false) (hn : t.event? input = none) :
    t.act input = (t, []) := by
  cases input with
  | command command =>
    cases command with
    | types schemas =>
      simp only [act, Task.command]
      split <;> rfl
    | shutdown => cases he
    | _ => cases hn
  | report report =>
    cases report with
    | elapsed timer => simp [act, Task.report, event?_elapsed_eq_none hn]
    | _ => cases hn
  | deserted => cases he

theorem act_acted (t : Task) (input : Input) : t.Acted input (t.act input) := by
  by_cases hr : t.running = true
  · cases hn : t.event? input with
    | some event =>
      rw [act_of_event hr hn]
      exact .follows hr hn
    | none =>
      by_cases he : input.ends = true
      · rw [act_of_ends hr he]
        exact .ends hr he
      · have he' := eq_false_of_ne_true he
        rw [act_of_idle he' hn]
        exact .rests fun _ => ⟨he', hn⟩
  · rw [act_of_stopped (eq_false_of_ne_true hr)]
    exact .rests fun h => absurd h hr

/-! What performing a log does to the task. -/

/-- What is so of each entry, and goes on over two, is so of a log. -/
theorem performAll_induction {P : Task → Task × List Effect → Prop} (idle : ∀ t, P t (t, []))
    (next : ∀ {t u v effects more}, P t (u, effects) → P u (v, more) → P t (v, effects ++ more))
    (step : ∀ t entry, P t (t.perform entry)) (t : Task) (log : List Link.Entry) :
    P t (t.performAll log) := by
  induction log generalizing t with
  | nil => exact idle t
  | cons entry log ih => exact next (step t entry) (ih _)

theorem performAll_keeps (t : Task) (log : List Link.Entry) :
    (t.performAll log).1.link = t.link ∧ (t.performAll log).1.running = t.running := by
  refine performAll_induction (P := fun t result => result.1.link = t.link ∧
    result.1.running = t.running) (fun _ => ⟨rfl, rfl⟩) ?_ ?_ t log
  · rintro t u v _ _ ⟨hl, hr⟩ ⟨hl', hr'⟩
    exact ⟨hl'.trans hl, hr'.trans hr⟩
  · intro t entry
    cases entry with
    | action action => cases action <;> exact ⟨rfl, rfl⟩
    | _ => exact ⟨rfl, rfl⟩

theorem follow_keeps (t : Task) (result : Link × List Link.Entry) :
    (t.follow result).1.link = result.1 ∧ (t.follow result).1.running = t.running :=
  performAll_keeps _ _

theorem noted_keeps (t : Task) (input : Input) :
    (t.noted input).link = t.link ∧ (t.noted input).running = t.running := by
  cases input with
  | command command => cases command <;> exact ⟨rfl, rfl⟩
  | report report => cases report <;> exact ⟨rfl, rfl⟩
  | deserted => exact ⟨rfl, rfl⟩

/-- The link of a task takes part in a run of its own. -/
theorem act_link (t : Task) (input : Input) :
    (t.act input).1.link = t.link ∨ ∃ event, (t.act input).1.link = (t.link.step event).1 := by
  generalize hact : t.act input = result
  cases hact ▸ act_acted t input with
  | rests => exact Or.inl rfl
  | @follows event => exact Or.inr ⟨event, (follow_keeps _ _).1⟩
  | ends => exact Or.inr ⟨.want false, (follow_keeps _ _).1⟩

theorem run_link {turns : List Turn} (h : Run policy turns t) :
    ∃ linkTurns, Link.Run policy linkTurns t.link := by
  induction h with
  | start => exact ⟨_, (Link.Run.start.step .listenStatus).step .listenFaults⟩
  | @act turns t input _ ih =>
    obtain ⟨linkTurns, hlink⟩ := ih
    rcases act_link t input with hsame | ⟨event, hstep⟩
    · exact ⟨linkTurns, hsame ▸ hlink⟩
    · rw [hstep]
      exact ⟨_, hlink.step event⟩

/-! What a task holds, and what its history says that it must hold. -/

inductive Resource where
  | socket (socket : Nat)
  | timer (timer : Nat)
  deriving DecidableEq, Repr

inductive Mark where
  | begun (resource : Resource)
  | ended (resource : Resource)
  deriving DecidableEq, Repr

def Effect.mark? : Effect → Option Mark
  | .dial socket _ => some (.begun (.socket socket))
  | .hangUp socket => some (.ended (.socket socket))
  | .startTimer timer _ => some (.begun (.timer timer))
  | .stopTimer timer => some (.ended (.timer timer))
  | .send _ _ | .status _ | .fault _ | .call _ => none

def Input.mark? : Input → Option Mark
  | .report (.closed socket) => some (.ended (.socket socket))
  | .report (.elapsed timer) => some (.ended (.timer timer))
  | _ => none

def marksOf (effects : List Effect) : List Mark := effects.filterMap Effect.mark?

def marks (turns : List Turn) : List Mark :=
  turns.flatMap fun turn => turn.input.mark?.toList ++ marksOf turn.effects

/-- It has begun, and it has not ended since. -/
def Lasts (resource : Resource) (marks : List Mark) : Prop :=
  Since (fun _ mark => mark = .begun resource) (· = .ended resource) marks

def timersIn (marks : List Mark) : List Nat :=
  marks.filterMap fun
    | .begun (.timer timer) => some timer
    | _ => none

variable {ms : List Mark} {mark : Mark} {r : Resource}

@[simp] theorem marksOf_append (effects more : List Effect) :
    marksOf (effects ++ more) = marksOf effects ++ marksOf more := List.filterMap_append

@[simp] theorem timersIn_append (ms more : List Mark) :
    timersIn (ms ++ more) = timersIn ms ++ timersIn more := List.filterMap_append

theorem marks_append_singleton (turns : List Turn) (turn : Turn) :
    marks (turns ++ [turn]) =
      marks turns ++ turn.input.mark?.toList ++ marksOf turn.effects := by
  simp [marks]

theorem lasts_append_singleton :
    Lasts r (ms ++ [mark]) ↔ mark = .begun r ∨ Lasts r ms ∧ mark ≠ .ended r :=
  since_append_singleton

theorem Lasts.begun_mem (h : Lasts r ms) : .begun r ∈ ms := by
  obtain ⟨before, mark, after, rfl, rfl, _⟩ := h
  exact List.mem_append_right _ List.mem_cons_self

theorem lasts_append_ended (rs : List Resource) :
    Lasts r (ms ++ rs.map .ended) ↔ Lasts r ms ∧ r ∉ rs := by
  induction rs using List.reverseRecOn with
  | nil => simp
  | append_singleton rs last ih =>
    rw [List.map_append, List.map_singleton, ← List.append_assoc, lasts_append_singleton, ih]
    simp [and_assoc, @eq_comm _ last]

/-- The task knows which sockets and which timer last, and numbers its timers from 1. -/
structure Inventory (t : Task) (ms : List Mark) : Prop where
  sockets : ∀ socket, socket ∈ t.sockets ↔ Lasts (.socket socket) ms
  timer : ∀ timer, t.timer = some timer ↔ Lasts (.timer timer) ms
  numbered : timersIn ms = List.range' 1 t.timers
  latest : ∀ timer, t.timer = some timer → timer = t.timers

theorem new_inventory (policy : Retry) : (new policy).Inventory [] where
  sockets := by simp [new, Lasts, not_since_nil]
  timer := by simp [new, Lasts, not_since_nil]
  numbered := rfl
  latest := by simp [new]

theorem Inventory.dialled (h : t.Inventory ms) (socket : Nat) :
    Inventory { t with sockets := t.sockets ++ [socket] } (ms ++ [.begun (.socket socket)]) where
  sockets other := by
    rw [lasts_append_singleton, ← h.sockets, List.mem_append, List.mem_singleton]
    simp [or_comm, @eq_comm _ socket]
  timer timer := by
    rw [lasts_append_singleton, ← h.timer]
    simp
  numbered := by simp [timersIn, ← h.numbered]
  latest := h.latest

theorem Inventory.lost (h : t.Inventory ms) (socket : Nat) :
    Inventory { t with sockets := t.sockets.filter (· ≠ socket) }
      (ms ++ [.ended (.socket socket)]) where
  sockets other := by
    rw [lasts_append_singleton, ← h.sockets]
    simp [@eq_comm _ socket]
  timer timer := by
    rw [lasts_append_singleton, ← h.timer]
    simp
  numbered := by simp [timersIn, ← h.numbered]
  latest := h.latest

theorem Inventory.over (h : t.Inventory ms) {timer : Nat} (ht : t.timer = some timer) :
    Inventory { t with timer := none } (ms ++ [.ended (.timer timer)]) where
  sockets socket := by
    rw [lasts_append_singleton, ← h.sockets]
    simp
  timer other := by
    rw [lasts_append_singleton, ← h.timer, ht]
    simp
  numbered := by simp [timersIn, ← h.numbered]
  latest := by simp

theorem Inventory.started (h : t.Inventory ms) (ht : t.timer = none) :
    Inventory { t with timer := some (t.timers + 1), timers := t.timers + 1 }
      (ms ++ [.begun (.timer (t.timers + 1))]) where
  sockets socket := by
    rw [lasts_append_singleton, ← h.sockets]
    simp
  timer other := by
    rw [lasts_append_singleton, ← h.timer, ht]
    simp
  numbered := by
    rw [timersIn_append, h.numbered, List.range'_concat]
    simp [timersIn, Nat.add_comm]
  latest := by simp

theorem Inventory.unheld (h : t.Inventory ms) (hs : ∀ socket ∈ t.sockets, r ≠ .socket socket)
    (ht : ∀ timer ∈ t.timer, r ≠ .timer timer) : t.Inventory (ms ++ [.ended r]) where
  sockets socket := by
    rw [lasts_append_singleton, ← h.sockets]
    simpa using fun hm => hs socket hm
  timer timer := by
    rw [lasts_append_singleton, ← h.timer]
    simpa using fun hm => ht timer hm
  numbered := by simp [timersIn, ← h.numbered]
  latest := h.latest

theorem Inventory.last_started (h : t.Inventory ms) {timer : Nat} (hl : Lasts (.timer timer) ms) :
    (timersIn ms).getLast? = some timer := by
  have hmem : timer ∈ timersIn ms := List.mem_filterMap.mpr ⟨_, hl.begun_mem, rfl⟩
  have hlatest := h.latest timer ((h.timer timer).mpr hl)
  rw [h.numbered] at hmem ⊢
  have hpos := (List.mem_range'_1.mp hmem).1
  rw [List.getLast?_range', ← hlatest, if_neg (by omega)]
  congr 1
  omega

def Accounts (t : Task) (result : Task × List Effect) : Prop :=
  ∀ ms, t.Inventory ms → result.1.Inventory (ms ++ marksOf result.2)

theorem Accounts.of_unmarked {effects : List Effect} (h : marksOf effects = []) :
    t.Accounts (t, effects) := by
  intro ms hi
  rwa [h, List.append_nil]

theorem stopTimer_accounts (t : Task) : t.Accounts t.stopTimer := by
  intro ms h
  cases ht : t.timer with
  | none =>
    have hsame : { t with timer := none } = t := by rw [← ht]
    simpa [stopTimer, ht, hsame, marksOf] using h
  | some timer => simpa [stopTimer, ht, marksOf, Effect.mark?] using h.over ht

theorem startTimer_accounts (t : Task) (delay : Duration) : t.Accounts (t.startTimer delay) := by
  intro ms h
  have hstarted := (stopTimer_accounts t ms h).started rfl
  rw [List.append_assoc] at hstarted
  simpa [startTimer, marksOf, Effect.mark?] using hstarted

theorem hangUp_accounts (t : Task) (socket : Nat) : t.Accounts (t.hangUp socket) := by
  intro ms h
  by_cases hm : socket ∈ t.sockets
  · simpa [hangUp, hm, marksOf, Effect.mark?] using h.lost socket
  · have hsame : t.sockets.filter (· ≠ socket) = t.sockets := by
      rw [List.filter_eq_self]
      intro other ho
      exact decide_eq_true fun he => hm (he ▸ ho)
    simpa only [hangUp, hsame, List.contains_iff_mem, if_neg hm, marksOf, List.filterMap_nil,
      List.append_nil] using h

theorem perform_accounts (t : Task) (entry : Link.Entry) : t.Accounts (t.perform entry) := by
  cases entry with
  | action action =>
    cases action with
    | dial socket url => exact fun ms h => h.dialled socket
    | hangUp socket => exact hangUp_accounts t socket
    | schedule delay => exact startTimer_accounts t delay
    | cancel => exact stopTimer_accounts t
  | sent socket request =>
    rw [perform]
    split <;> exact .of_unmarked rfl
  | status | fault | call => exact .of_unmarked rfl

theorem performAll_accounts (t : Task) (log : List Link.Entry) :
    t.Accounts (t.performAll log) := by
  refine performAll_induction (P := Accounts) (fun _ => .of_unmarked rfl) ?_ perform_accounts t log
  intro t u v effects more h h' ms hi
  rw [marksOf_append, ← List.append_assoc]
  exact h' _ (h ms hi)

theorem follow_accounts (t : Task) (result : Link × List Link.Entry) :
    t.Accounts (t.follow result) :=
  fun ms h => performAll_accounts _ _ ms ⟨h.sockets, h.timer, h.numbered, h.latest⟩

theorem Inventory.emptied (h : t.Inventory ms) :
    Inventory { t with sockets := [] } (ms ++ (t.sockets.map .socket).map .ended) where
  sockets socket := by
    rw [lasts_append_ended, ← h.sockets]
    simp
  timer timer := by
    rw [lasts_append_ended, ← h.timer]
    simp
  numbered := by simp [timersIn, List.filterMap_map, ← h.numbered]
  latest := h.latest

theorem takeDown_eq (t : Task) :
    t.takeDown =
      ({ (t.follow (t.link.step (.want false))).1.stopTimer.1 with
          sockets := [], running := false },
        (t.follow (t.link.step (.want false))).2 ++
          (t.follow (t.link.step (.want false))).1.stopTimer.2 ++
          (t.follow (t.link.step (.want false))).1.sockets.map .hangUp) := rfl

theorem takeDown_accounts (t : Task) : t.Accounts t.takeDown := by
  intro ms h
  have hfollow := follow_accounts t (t.link.step (.want false)) ms h
  have hstopped := (stopTimer_accounts _ _ hfollow).emptied
  have hhungUp : ∀ sockets : List Nat,
      marksOf (sockets.map .hangUp) = (sockets.map .socket).map .ended := by
    intro sockets
    have hmark : Effect.mark? ∘ Effect.hangUp = some ∘ Mark.ended ∘ Resource.socket := rfl
    rw [marksOf, List.filterMap_map, hmark, List.filterMap_eq_map, List.map_map]
  rw [takeDown_eq, marksOf_append, marksOf_append, hhungUp, ← List.append_assoc,
    ← List.append_assoc]
  exact ⟨hstopped.sockets, hstopped.timer, hstopped.numbered, hstopped.latest⟩

theorem noted_inventory (h : t.Inventory ms) {input : Input} {event : Link.Event}
    (he : t.event? input = some event) : (t.noted input).Inventory (ms ++ input.mark?.toList) := by
  cases input with
  | command command =>
    change Inventory _ (ms ++ [])
    rw [List.append_nil]
    cases command with
    | update path value => exact ⟨h.sockets, h.timer, h.numbered, h.latest⟩
    | _ => exact h
  | report report =>
    cases report with
    | closed socket => exact h.lost socket
    | elapsed timer => exact h.over (event?_elapsed he).1
    | opened | text | frame | failed => exact (List.append_nil ms).symm ▸ h
  | deserted => cases he

/-- Where the link is told nothing of an end, the task does not hold what ended. -/
theorem rest_inventory (h : t.Inventory ms) {input : Input}
    (hrest : t.running = true → t.event? input = none)
    (hstopped : t.running = false → t.sockets = [] ∧ t.timer = none) :
    t.Inventory (ms ++ input.mark?.toList) := by
  have hnothing : ∀ r, t.running = false → t.Inventory (ms ++ [.ended r]) := by
    intro r hr
    obtain ⟨hs, ht⟩ := hstopped hr
    apply h.unheld
    · simp [hs]
    · simp [ht]
  cases input with
  | command | deserted => exact (List.append_nil ms).symm ▸ h
  | report report =>
    cases report with
    | closed socket =>
      cases hr : t.running with
      | true => cases hrest hr
      | false => exact hnothing (.socket socket) hr
    | elapsed timer =>
      cases hr : t.running with
      | true =>
        have ht := event?_elapsed_eq_none (hrest hr)
        apply h.unheld (by simp)
        rintro other ho he
        cases he
        exact ht ho
      | false => exact hnothing (.timer timer) hr
    | opened | text | frame | failed => exact (List.append_nil ms).symm ▸ h

/-- At any time the task knows what it holds; once it has stopped, that is nothing. -/
theorem run_inventory {turns : List Turn} (h : Run policy turns t) :
    t.Inventory (marks turns) ∧ (t.running = false → t.sockets = [] ∧ t.timer = none) := by
  induction h with
  | start => exact ⟨new_inventory policy, fun hr => by cases hr⟩
  | @act turns t input _ ih =>
    obtain ⟨hinventory, hstopped⟩ := ih
    rw [marks_append_singleton]
    generalize hact : t.act input = result
    cases hact ▸ act_acted t input with
    | rests hrest =>
      have h := rest_inventory hinventory (fun hr => (hrest hr).2) hstopped
      exact ⟨(List.append_nil _).symm ▸ h, hstopped⟩
    | @follows event hr he =>
      refine ⟨follow_accounts _ _ _ (noted_inventory hinventory he), fun hn => ?_⟩
      rw [(follow_keeps _ _).2, (noted_keeps t input).2, hr] at hn
      cases hn
    | ends hr he =>
      have hmark : input.mark? = none := by
        cases input with
        | command | deserted => rfl
        | report => cases he
      rw [hmark, Option.toList_none, List.append_nil]
      exact ⟨takeDown_accounts t _ hinventory, fun _ => ⟨rfl, rfl⟩⟩

end Downlink.Task
