import Downlink.Proofs.Members
import Downlink.Proofs.Since

/-!
Demands that are refused. A session goes on from a refusal as it would from a grant; it only tells
the members of the topic, each of them once.
-/
namespace Downlink.Session

variable {s : Session} {inputs : List Input} {topic : Topic} {member : Nat}

def Sits (topic : Topic) (member : Nat) (inputs : List Input) : Prop :=
  Since (fun _ input => input = .join topic member) (· = .leave topic member) inputs

/-- What one input makes of the members of a topic. -/
theorem respond_sits (hn : (s.audience.ids topic).Nodup) (input : Input) :
    ((s.respond input).1.audience.ids topic).Nodup ∧
      ∀ member, member ∈ (s.respond input).1.audience.ids topic ↔
        input = .join topic member ∨
          member ∈ s.audience.ids topic ∧ input ≠ .leave topic member := by
  rw [respond_audience]
  cases input with
  | join other id =>
    constructor
    · exact Audience.ids_join_nodup hn other id
    · simp [Audience.mem_ids_join]
  | leave other id =>
    constructor
    · exact Audience.ids_leave_nodup hn other id
    · simp [Audience.mem_ids_leave]
  | _ =>
    constructor
    · exact hn
    · simp

/-- Under a topic stand those who sit there, each of them once. -/
theorem feed_sits (inputs : List Input) (topic : Topic) :
    ((start.feed inputs).1.audience.ids topic).Nodup ∧
      ∀ member, member ∈ (start.feed inputs).1.audience.ids topic ↔ Sits topic member inputs := by
  induction inputs using List.reverseRecOn with
  | nil =>
    have hnobody : (start.feed []).1.audience.ids topic = [] := by cases topic <;> rfl
    rw [hnobody]
    constructor
    · exact List.nodup_nil
    · simp [Sits, not_since_nil]
  | append_singleton inputs input ih =>
    rw [feed_append_fst, feed_singleton]
    obtain ⟨hnodup, hsits⟩ := ih
    obtain ⟨hnodup', hmem⟩ := respond_sits hnodup input
    constructor
    · exact hnodup'
    · intro member
      rw [hmem, hsits, Sits, Sits, since_append_singleton]

/-- What a session sends when it looks for its next batch, it tells to nobody. -/
theorem advance_silent (s : Session) :
    s.advance.2.faults = [] ∧ s.advance.2.abort = false ∧ s.advance.2.calls = [] := by
  have hentering : ∀ state, (s.entering state).faults = [] := by
    intro state
    unfold entering
    split <;> rfl
  by_cases hr : s.Ready
  · by_cases hq : s.queue = []
    · rw [advance_of_empty hr hq]
      exact ⟨hentering _, entering_abort _, entering_calls _⟩
    · rw [advance_of_queue hr hq]
      simp [hentering, entering_calls]
  · rw [advance_of_not_ready hr]
    exact ⟨rfl, rfl, rfl⟩

/-- What a demand is answered is in the callbacks only; all the rest goes by the id. -/
theorem onReply_demand {reply : Reply} {demand : Demand} (hids : (s.awaited.map (·.1)).Nodup)
    (hm : (reply.id, .demand demand) ∈ s.awaited) :
    s.onReply reply =
      (({ s with awaited := Table.erase reply.id s.awaited } : Session).advance.1,
        { ({ s with awaited := Table.erase reply.id s.awaited } : Session).advance.2 with
          calls :=
            if reply.ok then []
            else s.faultCalls demand.topic (.rejected demand.name reply.cause) }) := by
  have hget : Table.get? reply.id s.awaited = some (.demand demand) := Table.get?_of_mem hids hm
  obtain ⟨_, _, hsilent⟩ := advance_silent { s with awaited := Table.erase reply.id s.awaited }
  have hcalls : ∀ (calls : List Call) (a : Effects), a.calls = [] →
      ({ calls := calls } : Effects) ++ a = { a with calls := calls } := by
    rintro calls ⟨requests, faults, entered, abort, _⟩ rfl
    change Effects.append _ _ = _
    simp [Effects.append]
  rw [onReply, hget]
  exact Prod.ext rfl (hcalls _ _ hsilent)

/-- After any inputs, whether a demand that is open is granted or refused, and for whatever reason,
makes no difference to the session, to what it asks for and to the states that it enters. Nobody
hears of a grant, and of a refusal only those who sit at its topic then, each of them once. -/
theorem refusal_only_told {yes no : String} {granted refused : Reply} {demand : Demand}
    (hm : (granted.id, .demand demand) ∈ (start.feed inputs).1.awaited)
    (hyes : Message.read yes = .ok (.reply granted)) (hgranted : granted.ok = true)
    (hno : Message.read no = .ok (.reply refused)) (hrefused : refused.ok = false)
    (hid : refused.id = granted.id) :
    ((start.feed inputs).1.onText no).1 = ((start.feed inputs).1.onText yes).1 ∧
      ((start.feed inputs).1.onText no).2 =
        { ((start.feed inputs).1.onText yes).2 with
          calls := ((start.feed inputs).1.audience.ids demand.topic).map fun member =>
            .fault member demand.topic
              (.rejected demand.name (refused.reason.getD "no reason given")) } ∧
      ((start.feed inputs).1.onText yes).2.calls = [] ∧
      ((start.feed inputs).1.onText yes).2.faults = [] ∧
      ((start.feed inputs).1.onText yes).2.abort = false ∧
      ((start.feed inputs).1.audience.ids demand.topic).Nodup ∧
      ∀ member, member ∈ (start.feed inputs).1.audience.ids demand.topic ↔
        Sits demand.topic member inputs := by
  have hids := (feed_preserves_invariant start_invariant inputs).ids
  obtain ⟨hnodup, hsits⟩ := feed_sits inputs demand.topic
  have hgrant := onReply_demand hids hm
  have hrefuse := onReply_demand hids (hid ▸ hm)
  rw [hgranted, if_pos rfl] at hgrant
  rw [hrefused, if_neg Bool.false_ne_true, hid] at hrefuse
  have hyes' : (start.feed inputs).1.onText yes = (start.feed inputs).1.onReply granted := by
    rw [onText, hyes]
  have hno' : (start.feed inputs).1.onText no = (start.feed inputs).1.onReply refused := by
    rw [onText, hno]
  obtain ⟨hfaults, habort, _⟩ :=
    advance_silent { (start.feed inputs).1 with
      awaited := Table.erase granted.id (start.feed inputs).1.awaited }
  rw [hyes', hno', hgrant, hrefuse]
  exact ⟨rfl, rfl, rfl, hfaults, habort, hnodup, hsits⟩

def waiting : List Input :=
  [.join (.parameter "p") 1, .join (.parameter "p") 2, .socket .connected,
    .text "\x7b\"id\":1,\"ok\":true,\"parameter_hierarchy\":\x7b\x7d\x7d",
    .text "\x7b\"id\":0,\"ok\":true,\"output_hierarchy\":\x7b\x7d\x7d",
    .leave (.parameter "p") 1, .join (.image "p") 3, .demand ⟨true, .image "p"⟩]

def granting : String := "\x7b\"id\":2,\"ok\":true\x7d"

def refusing : String := "\x7b\"id\":2,\"ok\":false,\"reason\":\"busy\"\x7d"

theorem refusal_only_told_waiting :
    ((start.feed waiting).1.onText refusing).1 = ((start.feed waiting).1.onText granting).1 ∧
      ((start.feed waiting).1.onText refusing).2 =
        { requests := [⟨3, .demand ⟨true, .image "p"⟩⟩]
          calls := [.fault 2 (.parameter "p") (.rejected "SubscribeParameter" "busy")] } := by
  have hyes : Message.read granting = .ok (.reply ⟨2, true, none, []⟩) := by decide +kernel
  have hno : Message.read refusing = .ok (.reply ⟨2, false, some "busy", []⟩) := by
    decide +kernel
  have hm : ((⟨2, true, none, []⟩ : Reply).id, .demand ⟨true, .parameter "p"⟩) ∈
      (start.feed waiting).1.awaited := by decide +kernel
  obtain ⟨hsame, htold, _⟩ := refusal_only_told hm hyes rfl hno rfl rfl
  refine ⟨hsame, ?_⟩
  rw [htold]
  decide +kernel

end Downlink.Session
