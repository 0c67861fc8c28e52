import Downlink.Proofs.Table
import Downlink.Wire.Incoming

/-!
What is a reply. An object with a member `id` is one if its id, its verdict and its reason have
their forms, and then all that it holds besides these is the payload. It is never a push, and no
other text is a reply.
-/
namespace Downlink

namespace Json

variable {V : Type} {key : String} {members : List (String × Json)} {value : Json}

/-- The member is the written value. For no value it is missing or null. -/
def Holds (written : V → Json) (key : String) (members : List (String × Json)) : Option V → Prop
  | some v => Table.get? key members = some (written v)
  | none => Table.get? key members = none ∨ Table.get? key members = some .null

theorem text?_eq_some_iff {text : String} : value.text? = some text ↔ value = .str text := by
  cases value <;> simp [text?]

theorem natBelow?_eq_some_iff {bound n : Nat} :
    value.natBelow? bound = some n ↔ value = .int n ∧ n < bound := by
  cases value with
  | int i =>
    simp only [natBelow?, Option.ite_none_right_eq_some, Option.some.injEq, int.injEq]
    omega
  | _ => simp [natBelow?]

theorem optionalMember?_eq_some_iff {read : Json → Option V} {written : V → Json}
    {allowed : V → Prop} (hread : ∀ value v, read value = some v ↔ value = written v ∧ allowed v)
    (hnull : ∀ v, written v ≠ .null) {found : Option V} :
    optionalMember? read key members = some found ↔
      Holds written key members found ∧ ∀ v ∈ found, allowed v := by
  unfold optionalMember?
  cases hget : Table.get? key members with
  | none => cases found <;> simp [Holds, hget]
  | some value =>
    cases value with
    | null => cases found <;> simp [Holds, hget, (hnull _).symm]
    | _ => cases found <;> simp [Holds, hget, hread]

theorem getElem?_snd_eq_some_iff {variants : List (String × V)} {variant : V} {name : String}
    {place n : Nat} (hvariants : (variants.map (·.2)).Nodup)
    (h : variants[place]? = some (name, variant)) :
    (variants[n]?).map (·.2) = some variant ↔ n = place := by
  have hplace : (variants.map (·.2))[place]? = some variant := by
    rw [List.getElem?_map, h, Option.map_some]
  rw [← List.getElem?_map]
  constructor
  · intro hn
    have hlt := (List.getElem?_eq_some_iff.mp hn).1
    exact (List.getElem?_inj hlt hvariants).mp (hn.trans hplace.symm)
  · rintro rfl
    exact hplace

/-- A variant is told by its name, and where numbers count also by its place. -/
theorem variant?_eq_some_iff {variants : List (String × V)} {variant : V} {name : String}
    {place : Nat} {form : TagForm} (hnames : (variants.map (·.1)).Nodup)
    (hvariants : (variants.map (·.2)).Nodup) (h : variants[place]? = some (name, variant)) :
    variant? form variants value = some variant ↔
      value = .str name ∨ form = .namedOrNumbered ∧ value = .int place := by
  cases value with
  | str text =>
    have hm := List.mem_of_getElem? h
    simp only [variant?, Table.get?_eq_some_iff hnames, str.injEq, reduceCtorEq, and_false,
      or_false]
    constructor
    · intro htext
      exact (Prod.mk.inj (List.inj_on_of_nodup_map hvariants htext hm rfl)).1
    · rintro rfl
      exact hm
  | int n =>
    simp only [variant?, Option.ite_none_right_eq_some, getElem?_snd_eq_some_iff hvariants h,
      reduceCtorEq, false_or, int.injEq, and_assoc]
    exact and_congr_right fun _ => by omega
  | _ => simp [variant?]

end Json

namespace Reply

variable {reply : Reply} {members : List (String × Json)}

structure Shaped (members : List (String × Json)) : Prop where
  id : ∃ id : Nat, Table.get? "id" members = some (.int id) ∧ id < Nat.pow 2 64
  ok : ∃ ok, Table.get? "ok" members = some (.bool ok)
  reason : Table.get? "reason" members = none ∨ Table.get? "reason" members = some .null ∨
    ∃ text, Table.get? "reason" members = some (.str text)

/-- The reply says what the members hold, and leaves nothing out. -/
structure Tells (members : List (String × Json)) (reply : Reply) : Prop where
  id : Table.get? "id" members = some (.int reply.id)
  below : reply.id < Nat.pow 2 64
  ok : Table.get? "ok" members = some (.bool reply.ok)
  reason : Json.Holds .str "reason" members reply.reason
  payload : reply.payload = members.filter (·.1 ∉ ["id", "ok", "reason"])

theorem payload_eq (members : List (String × Json)) :
    Table.erase "id" (Table.erase "ok" (Table.erase "reason" members)) =
      members.filter (·.1 ∉ ["id", "ok", "reason"]) := by
  simp only [Table.erase, List.filter_filter]
  apply List.filter_congr
  intro member _
  simp

theorem reason_eq_some_iff {reason : Option String} :
    Json.optionalMember? Json.text? "reason" members = some reason ↔
      Json.Holds .str "reason" members reason := by
  have hread : ∀ (value : Json) text, value.text? = some text ↔ value = .str text ∧ True := by
    simp [Json.text?_eq_some_iff]
  rw [Json.optionalMember?_eq_some_iff hread (by simp)]
  simp

theorem ofMembers?_eq_some_iff : ofMembers? members = some reply ↔ Tells members reply := by
  constructor
  · intro h
    unfold ofMembers? at h
    split at h
    next id ok reason hid hok hreason =>
      obtain ⟨_, hget, hread⟩ := Option.bind_eq_some_iff.mp hid
      obtain ⟨rfl, hbelow⟩ := Json.natBelow?_eq_some_iff.mp hread
      cases h
      exact ⟨hget, hbelow, hok, reason_eq_some_iff.mp hreason, payload_eq members⟩
    next => cases h
  · intro h
    have hid : (Table.get? "id" members).bind (Json.natBelow? (Nat.pow 2 64)) = some reply.id := by
      rw [h.id, Option.bind_some, Json.natBelow?_eq_some_iff]
      exact ⟨rfl, h.below⟩
    rw [ofMembers?, hid, h.ok, reason_eq_some_iff.mpr h.reason]
    dsimp only
    rw [payload_eq, ← h.payload]

theorem exists_tells_iff : (∃ reply, Tells members reply) ↔ Shaped members := by
  constructor
  · rintro ⟨⟨id, ok, reason, payload⟩, hid, hbelow, hok, hreason, _⟩
    refine ⟨⟨id, hid, hbelow⟩, ⟨ok, hok⟩, ?_⟩
    cases reason with
    | some text => exact Or.inr (Or.inr ⟨text, hreason⟩)
    | none => exact hreason.imp_right Or.inl
  · rintro ⟨⟨id, hid, hbelow⟩, ⟨ok, hok⟩, hreason⟩
    have hholds : ∃ reason, Json.Holds .str "reason" members reason := by
      rcases hreason with hr | hr | ⟨text, hr⟩
      · exact ⟨none, Or.inl hr⟩
      · exact ⟨none, Or.inr hr⟩
      · exact ⟨some text, hr⟩
    obtain ⟨reason, hholds⟩ := hholds
    exact ⟨⟨id, ok, reason, _⟩, hid, hbelow, hok, hholds, rfl⟩

end Reply

namespace Message

variable {text : String} {members : List (String × Json)}

/-- An object with an id is a reply or nothing. -/
theorem read_of_id (h : Json.read? text = some (.obj members))
    (hid : (Table.get? "id" members).isSome) :
    Message.read text =
      match Reply.ofMembers? members with
      | some found => .ok (.reply found)
      | none => .error (.json .shape) := by
  rw [Message.read, h]
  simp only [ofJson, hid, if_true]
  cases Reply.ofMembers? members <;> rfl

/-- An object without an id is a push or nothing. -/
theorem read_of_no_id (h : Json.read? text = some (.obj members))
    (hid : Table.get? "id" members = none) :
    Message.read text =
      match Push.ofMembers? members with
      | some found => .ok (.push found)
      | none => .error (.json .shape) := by
  rw [Message.read, h]
  simp only [ofJson, hid]
  cases Push.ofMembers? members <;> rfl

theorem read_of_no_object {value : Json} (h : Json.read? text = some value)
    (hv : ∀ members, value ≠ .obj members) :
    Message.read text =
      .error (.unexpectedFormat ("expected a JSON object, got " ++ value.write)) := by
  rw [Message.read, h]
  cases value with
  | obj members => exact absurd rfl (hv members)
  | _ => rfl

/-- An object with an id is never a push. It is a reply exactly if it is shaped as one, the reply
tells all that the object holds, and otherwise the object is of the wrong form. No other text is a
reply. -/
theorem replies_recognised (text : String) :
    (∀ members, Json.read? text = some (.obj members) → (Table.get? "id" members).isSome →
      (∀ push, Message.read text ≠ .ok (.push push)) ∧
        ((∃ reply, Message.read text = .ok (.reply reply)) ↔ Reply.Shaped members) ∧
        (∀ reply, Message.read text = .ok (.reply reply) ↔ Reply.Tells members reply) ∧
        (¬ Reply.Shaped members → Message.read text = .error (.json .shape))) ∧
      (∀ value, Json.read? text = some value → (∀ members, value ≠ .obj members) →
        Message.read text =
          .error (.unexpectedFormat ("expected a JSON object, got " ++ value.write))) ∧
      ∀ members, Json.read? text = some (.obj members) → Table.get? "id" members = none →
        ∀ reply, Message.read text ≠ .ok (.reply reply) := by
  refine ⟨?_, ?_, ?_⟩
  · intro members h hid
    have hread := read_of_id h hid
    have htells : ∀ reply, Message.read text = .ok (.reply reply) ↔ Reply.Tells members reply := by
      intro reply
      rw [hread, ← Reply.ofMembers?_eq_some_iff]
      cases Reply.ofMembers? members <;> simp
    refine ⟨?_, ?_, htells, ?_⟩
    · intro push hp
      rw [hread] at hp
      cases hr : Reply.ofMembers? members <;> simp [hr] at hp
    · rw [← Reply.exists_tells_iff]
      exact exists_congr htells
    · intro hs
      rw [hread]
      cases hr : Reply.ofMembers? members with
      | none => rfl
      | some reply =>
        exact absurd (Reply.exists_tells_iff.mp ⟨reply, Reply.ofMembers?_eq_some_iff.mp hr⟩) hs
  · intro value h hv
    exact read_of_no_object h hv
  · intro members h hid reply hr
    rw [read_of_no_id h hid] at hr
    cases hp : Push.ofMembers? members <;> simp [hp] at hr

/-- The largest id, members of a push, and a name that differs from a reserved one in its case. -/
def disguised : String :=
  "\x7b\"type\":\"OutputsUpdated\",\"ok\":false,\"Id\":-1,\"id\":18446744073709551615," ++
    "\"cycler\":\"c\",\"outputs\":[],\"reason\":null\x7d"

def fractional : String := "\x7b\"id\":1.0,\"ok\":true\x7d"

theorem replies_recognised_disguised :
    Message.read disguised = .ok (.reply ⟨Nat.pow 2 64 - 1, false, none,
        [("Id", .int (-1)), ("cycler", .str "c"), ("outputs", .arr []),
          ("type", .str "OutputsUpdated")]⟩) ∧
      Message.read fractional = .error (.json .shape) := by
  constructor
  · obtain ⟨hreply, _⟩ := replies_recognised disguised
    have h : Json.read? disguised = some (.obj [("Id", .int (-1)), ("cycler", .str "c"),
        ("id", .int (Nat.pow 2 64 - 1)), ("ok", .bool false), ("outputs", .arr []),
        ("reason", .null), ("type", .str "OutputsUpdated")]) := by decide +kernel
    obtain ⟨_, _, htells, _⟩ := hreply _ h rfl
    exact (htells _).mpr ⟨rfl, by decide, rfl, Or.inr rfl, by decide +kernel⟩
  · obtain ⟨hreply, _⟩ := replies_recognised fractional
    have h : Json.read? fractional = some (.obj
        [("id", .float (.finite false (Nat.pow 2 52) (-52))), ("ok", .bool true)]) := by
      decide +kernel
    obtain ⟨_, _, _, herror⟩ := hreply _ h rfl
    apply herror
    rintro ⟨⟨id, hid, _⟩, _, _⟩
    cases hid

end Message
end Downlink
