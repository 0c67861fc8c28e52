import Downlink.Proofs.Barrier
import Downlink.Proofs.Members
import Downlink.Proofs.Wire
import Mathlib.Data.Nat.Basic

/-!
How images find their way. Whatever a member gets of an image is made of a frame and of a push that
came on one connection and had the same image id, and neither of the two is ever used again.
-/
namespace Downlink

inductive Half where
  | frame (id : Nat) (image : List UInt8)
  | announcement (id : Nat) (cycler : String)
  deriving DecidableEq, Repr

inductive Half.Fits : Half → Half → String × List UInt8 → Prop where
  | frame {id image cycler} : Fits (.frame id image) (.announcement id cycler) (cycler, image)
  | announcement {id image cycler} :
      Fits (.announcement id cycler) (.frame id image) (cycler, image)

namespace Pairing

variable {pairing : Pairing}

def halves (pairing : Pairing) : List Half :=
  pairing.frames.map (fun row => .frame row.1 row.2) ++
    pairing.announcements.map fun row => .announcement row.1 row.2

def take (pairing : Pairing) : Half → Pairing × Option (String × List UInt8)
  | .frame id image => pairing.onFrame id image
  | .announcement id cycler => pairing.onAnnouncement id cycler

@[simp] theorem frame_mem_halves {id : Nat} {image : List UInt8} :
    .frame id image ∈ pairing.halves ↔ (id, image) ∈ pairing.frames := by
  simp [halves]

@[simp] theorem announcement_mem_halves {id : Nat} {cycler : String} :
    .announcement id cycler ∈ pairing.halves ↔ (id, cycler) ∈ pairing.announcements := by
  simp [halves]

theorem mem_trim_insert {V : Type} {id : Nat} {value : V} {table : Table Nat V} {row : Nat × V}
    (h : row ∈ trim (Table.insert id value table)) : row = (id, value) ∨ row ∈ table :=
  Table.mem_insert (List.mem_of_mem_drop h)

/-- A half meets one that waits, which then waits no longer, or it waits itself. -/
theorem take_cases (pairing : Pairing) (half : Half) :
    (∃ other ∈ pairing.halves, ∃ pair, other.Fits half pair ∧
        (pairing.take half).2 = some pair ∧
        ∀ left ∈ (pairing.take half).1.halves, left ∈ pairing.halves ∧ left ≠ other) ∨
      (pairing.take half).2 = none ∧
        ∀ left ∈ (pairing.take half).1.halves, left ∈ pairing.halves ∨ left = half := by
  cases half with
  | frame id image =>
    cases hget : Table.get? id pairing.announcements with
    | some cycler =>
      have hwaits := announcement_mem_halves.mpr (Table.mem_of_get? hget)
      simp only [take, onFrame, hget]
      refine Or.inl ⟨_, hwaits, (cycler, image), .announcement, rfl, ?_⟩
      intro left hleft
      cases left <;> simp_all [Table.erase]
    | none =>
      simp only [take, onFrame, hget]
      refine Or.inr ⟨trivial, ?_⟩
      intro left hleft
      cases left with
      | frame => simpa [or_comm] using mem_trim_insert (frame_mem_halves.mp hleft)
      | announcement => simpa using hleft
  | announcement id cycler =>
    cases hget : Table.get? id pairing.frames with
    | some image =>
      have hwaits := frame_mem_halves.mpr (Table.mem_of_get? hget)
      simp only [take, onAnnouncement, hget]
      refine Or.inl ⟨_, hwaits, (cycler, image), .frame, rfl, ?_⟩
      intro left hleft
      cases left <;> simp_all [Table.erase]
    | none =>
      simp only [take, onAnnouncement, hget]
      refine Or.inr ⟨trivial, ?_⟩
      intro left hleft
      cases left with
      | frame => simpa using hleft
      | announcement => simpa [or_comm] using mem_trim_insert (announcement_mem_halves.mp hleft)

end Pairing

namespace Frame

/-- A frame is four bytes of any kind, the id with its lowest byte first, and the image. -/
theorem ofBytes_eq_ok_iff {bytes : List UInt8} {frame : Frame} :
    ofBytes bytes = .ok frame ↔
      ∃ header b₀ b₁ b₂ b₃, header.length = 4 ∧ bytes = header ++ [b₀, b₁, b₂, b₃] ++ frame.image ∧
        frame.imageId =
          b₀.toNat + 256 * b₁.toNat + 65536 * b₂.toNat + 16777216 * b₃.toNat := by
  obtain ⟨id, image⟩ := frame
  constructor
  · intro h
    unfold ofBytes at h
    split at h
    · cases h
    next hl =>
      simp only [Except.ok.injEq, Frame.mk.injEq] at h
      obtain ⟨rfl, rfl⟩ := h
      have hid : ((bytes.drop 4).take 4).length = 4 := by
        simp only [List.length_take, List.length_drop, headerSize] at hl ⊢
        omega
      obtain ⟨b₀, b₁, b₂, b₃, he⟩ := List.length_eq_four.mp hid
      refine ⟨bytes.take 4, b₀, b₁, b₂, b₃, ?_, ?_, ?_⟩
      · simp only [List.length_take, headerSize] at hl ⊢
        omega
      · rw [← he, List.append_assoc]
        have hrest : bytes.drop headerSize = (bytes.drop 4).drop 4 := by simp [headerSize]
        rw [hrest, List.take_append_drop, List.take_append_drop]
      · rw [he]
        simp only [natOfBytes]
        omega
  · rintro ⟨header, b₀, b₁, b₂, b₃, hl, rfl, hid⟩
    match header, hl with
    | [a₀, a₁, a₂, a₃], _ =>
      have hlong : ¬ ([a₀, a₁, a₂, a₃] ++ [b₀, b₁, b₂, b₃] ++ image).length < headerSize := by
        simp [headerSize]
      dsimp only at hid
      rw [ofBytes, if_neg hlong, hid]
      simp only [List.cons_append, List.nil_append, List.drop, List.take, natOfBytes, headerSize,
        Except.ok.injEq, Frame.mk.injEq, and_true]
      omega

end Frame

def Call.isImage : Call → Bool
  | .image _ _ _ => true
  | _ => false

theorem filter_isImage_eq_nil {calls : List Call} (h : ∀ call ∈ calls, call.isData = false) :
    calls.filter (·.isImage) = [] := by
  apply List.filter_eq_nil_iff.mpr
  intro call hm hi
  cases call with
  | image => exact absurd (h _ hm) (by simp [Call.isData])
  | _ => cases hi

namespace Session

variable {s : Session}

theorem valueCalls_isImage (topic : Topic) (value : Json) :
    (s.valueCalls topic value).filter (·.isImage) = [] := by
  simp [valueCalls, Call.isImage]

theorem imageCalls_isImage (pair : Option (String × List UInt8)) :
    (s.imageCalls pair).filter (·.isImage) = s.imageCalls pair := by
  cases pair <;> simp [imageCalls, Call.isImage]

theorem readings_isImage (cycler : String) (readings : List Reading) :
    (readings.flatMap (s.readingCalls cycler)).filter (·.isImage) = [] := by
  rw [List.filter_flatMap, List.flatMap_eq_nil_iff]
  intro reading _
  unfold readingCalls
  split
  · exact valueCalls_isImage _ _
  · rfl

/-- The session takes a half, and whoever listens to the cycler gets the pair. -/
structure TakesHalf (s : Session) (half : Half) (result : Session × Effects) : Prop where
  images : result.1.images = (s.images.take half).1
  calls : result.2.calls.filter (·.isImage) = s.imageCalls (s.images.take half).2

structure TakesNoHalf (s : Session) (result : Session × Effects) : Prop where
  images : ∀ half ∈ result.1.images.halves, half ∈ s.images.halves
  calls : result.2.calls.filter (·.isImage) = []

theorem Withholds.takesNoHalf {result : Session × Effects} (h : s.Withholds result) :
    s.TakesNoHalf result where
  images := by
    intro half hm
    rcases h.images with hi | hi
    · rwa [hi] at hm
    · rw [hi] at hm
      cases hm
  calls := filter_isImage_eq_nil h.calls

theorem onFrame_takesHalf {bytes : List UInt8} {frame : Frame}
    (h : Frame.ofBytes bytes = .ok frame) :
    s.TakesHalf (.frame frame.imageId frame.image) (s.onFrame bytes) := by
  rw [onFrame, h]
  exact ⟨rfl, imageCalls_isImage _⟩

theorem onPush_takesHalf (cycler : String) (readings : List Reading) (id : Nat) :
    s.TakesHalf (.announcement id cycler) (s.onPush (.outputs cycler readings (some id))) := by
  refine ⟨rfl, ?_⟩
  simp only [onPush, List.filter_append, readings_isImage, List.nil_append]
  exact imageCalls_isImage _

theorem onPush_takesNoHalf {push : Push} (h : ∀ cycler readings id,
    push ≠ .outputs cycler readings (some id)) : s.TakesNoHalf (s.onPush push) := by
  cases push with
  | parameter path value => exact ⟨fun _ hm => hm, valueCalls_isImage _ _⟩
  | outputs cycler readings imageId =>
    cases imageId with
    | none => exact ⟨fun _ hm => hm, readings_isImage cycler readings⟩
    | some id => exact absurd rfl (h cycler readings id)

end Session

namespace Link

variable {l m : Link} {policy : Retry} {turns : List Turn} {event : Event}
  {number socket low high : Nat} {half : Half}

inductive Brings (l : Link) : Event → Nat → Half → Prop where
  | frame {socket bytes header b₀ b₁ b₂ b₃ id image} (ha : l.accepts socket = true)
      (hl : header.length = 4) (hb : bytes = header ++ [b₀, b₁, b₂, b₃] ++ image)
      (hid : id = b₀.toNat + 256 * b₁.toNat + 65536 * b₂.toNat + 16777216 * b₃.toNat) :
      Brings l (.frame socket bytes) socket (.frame id image)
  | announcement {socket text cycler readings id} (ha : l.accepts socket = true)
      (ht : Message.read text = .ok (.push (.outputs cycler readings (some id)))) :
      Brings l (.text socket text) socket (.announcement id cycler)

theorem Brings.accepts (h : l.Brings event socket half) : l.accepts socket = true := by
  cases h with
  | frame ha => exact ha
  | announcement ha => exact ha

theorem Brings.eq {other : Nat} {half' : Half} (h : l.Brings event socket half)
    (h' : m.Brings event other half') : half = half' := by
  cases h with
  | @frame _ bytes _ _ _ _ _ id image ha hl hb hid =>
    cases h' with
    | @frame _ _ _ _ _ _ _ id' image' ha' hl' hb' hid' =>
      have hleft : Frame.ofBytes bytes = .ok ⟨id, image⟩ :=
        Frame.ofBytes_eq_ok_iff.mpr ⟨_, _, _, _, _, hl, hb, hid⟩
      have hright : Frame.ofBytes bytes = .ok ⟨id', image'⟩ :=
        Frame.ofBytes_eq_ok_iff.mpr ⟨_, _, _, _, _, hl', hb', hid'⟩
      rw [hleft] at hright
      cases hright
      rfl
  | announcement ha ht =>
    cases h' with
    | announcement ha' ht' =>
      rw [ht] at ht'
      cases ht'
      rfl

theorem brings_frame {bytes : List UInt8} {frame : Frame} (ha : l.accepts socket = true)
    (h : Frame.ofBytes bytes = .ok frame) :
    l.Brings (.frame socket bytes) socket (.frame frame.imageId frame.image) := by
  obtain ⟨header, b₀, b₁, b₂, b₃, hl, hb, hid⟩ := Frame.ofBytes_eq_ok_iff.mp h
  exact .frame ha hl hb hid

/-- A half that comes is taken, and the halves are touched in no other way than that all are given
up. -/
theorem reaction_images (l : Link) (event : Event) :
    (∃ socket half, l.Brings event socket half ∧ l.session.TakesHalf half (l.reaction event)) ∨
      l.session.TakesNoHalf (l.reaction event) := by
  cases hh : l.heeds event with
  | false => exact Or.inr (reaction_withholds hh).takesNoHalf
  | true =>
    cases event with
    | text socket text =>
      have ha : l.accepts socket = true := hh
      rw [reaction_text ha, Session.onText]
      cases ht : Message.read text with
      | error fault => exact Or.inr ⟨fun _ hm => hm, rfl⟩
      | ok message =>
        cases message with
        | reply reply => exact Or.inr (Session.onReply_rests l.session reply).withholds.takesNoHalf
        | push push =>
          by_cases hp : ∃ cycler readings id, push = .outputs cycler readings (some id)
          · obtain ⟨cycler, readings, id, rfl⟩ := hp
            exact Or.inl ⟨socket, _, .announcement ha ht, Session.onPush_takesHalf _ _ _⟩
          · refine Or.inr (Session.onPush_takesNoHalf ?_)
            intro cycler readings id he
            exact hp ⟨cycler, readings, id, he⟩
    | frame socket bytes =>
      have ha : l.accepts socket = true := hh
      rw [reaction_frame ha]
      cases hf : Frame.ofBytes bytes with
      | error fault =>
        rw [Session.onFrame, hf]
        exact Or.inr ⟨fun _ hm => hm, rfl⟩
      | ok frame => exact Or.inl ⟨socket, _, brings_frame ha hf, Session.onFrame_takesHalf hf⟩
    | _ => cases hh

def HeardAt (policy : Retry) (turns : List Turn) (number socket : Nat) (half : Half) : Prop :=
  ∃ turn l, turns[number]? = some turn ∧ Run policy (turns.take number) l ∧
    l.Brings turn.event socket half

def Holds (policy : Retry) (turns : List Turn) (socket low high : Nat) : Prop :=
  ∀ number l, low ≤ number → number ≤ high → Run policy (turns.take number) l →
    l.accepts socket = true

/-- A frame and a push that come together, named by the numbers of their turns. -/
structure Meeting where
  frame : Nat
  push : Nat
  socket : Nat
  imageId : Nat
  cycler : String
  image : List UInt8

namespace Meeting

variable {meeting : Meeting}

def last (meeting : Meeting) : Nat := max meeting.frame meeting.push

structure Happens (policy : Retry) (turns : List Turn) (meeting : Meeting) : Prop where
  frame : HeardAt policy turns meeting.frame meeting.socket
    (.frame meeting.imageId meeting.image)
  push : HeardAt policy turns meeting.push meeting.socket
    (.announcement meeting.imageId meeting.cycler)
  connected : Holds policy turns meeting.socket (min meeting.frame meeting.push) meeting.last

end Meeting

theorem HeardAt.lt (h : HeardAt policy turns number socket half) : number < turns.length := by
  obtain ⟨turn, _, hturn, _⟩ := h
  exact (List.getElem?_eq_some_iff.mp hturn).1

theorem HeardAt.eq {other : Nat} {half' : Half} (h : HeardAt policy turns number socket half)
    (h' : HeardAt policy turns number other half') : half = half' := by
  obtain ⟨turn, _, hturn, _, hb⟩ := h
  obtain ⟨turn', _, hturn', _, hb'⟩ := h'
  rw [hturn] at hturn'
  cases hturn'
  exact hb.eq hb'

theorem HeardAt.append (h : HeardAt policy turns number socket half) (turn : Turn) :
    HeardAt policy (turns ++ [turn]) number socket half := by
  have hlt := h.lt
  obtain ⟨heard, m, hturn, hm, hb⟩ := h
  refine ⟨heard, m, ?_, ?_, hb⟩
  · rw [List.getElem?_append_left hlt]
    exact hturn
  · rw [List.take_append_of_le_length (Nat.le_of_lt hlt)]
    exact hm

theorem Holds.append (h : Holds policy turns socket low high) (hh : high ≤ turns.length)
    (turn : Turn) : Holds policy (turns ++ [turn]) socket low high := by
  intro number m hlow hhigh hm
  rw [List.take_append_of_le_length (Nat.le_trans hhigh hh)] at hm
  exact h number m hlow hhigh hm

theorem Meeting.Happens.append {meeting : Meeting} (h : meeting.Happens policy turns)
    (turn : Turn) : meeting.Happens policy (turns ++ [turn]) where
  frame := h.frame.append turn
  push := h.push.append turn
  connected := by
    apply h.connected.append
    have hf := h.frame.lt
    have hp := h.push.lt
    simp only [Meeting.last]
    omega

/-- Halves wait only while the link is connected. -/
theorem Run.connected_of_waiting (h : Run policy turns l)
    (hw : half ∈ l.session.images.halves) : l.dialer.state = .connected := by
  rw [← (run_invariant h).online_iff]
  intro ho
  obtain ⟨inputs, hon, hfeed⟩ := run_hearsOnline h
  have hnone : l.session.Discards := by
    rw [← hfeed]
    exact Session.feed_discards (fun _ => rfl) hon
  rw [hnone ho] at hw
  cases hw

theorem Holds.accepts (h : Holds policy turns socket low turns.length) (hl : low ≤ turns.length)
    (hr : Run policy turns l) : l.accepts socket = true := by
  rw [← List.take_length (l := turns)] at hr
  exact h turns.length l hl (Nat.le_refl _) hr

theorem Holds.step (h : Holds policy turns socket low turns.length) (hl : low ≤ turns.length)
    (hr : Run policy turns l) (hc : (l.step event).1.dialer.state = .connected) :
    Holds policy (turns ++ [⟨event, (l.step event).2⟩]) socket low (turns.length + 1) := by
  intro number m hlow hhigh hm
  rcases Nat.lt_or_eq_of_le hhigh with hlt | rfl
  · exact h.append (Nat.le_refl _) _ number m hlow (Nat.lt_succ_iff.mp hlt) hm
  · rw [List.take_of_length_le (by simp)] at hm
    rw [hm.eq (hr.step event)]
    exact accepts_step (run_invariant hr) (h.accepts hl hr) hc

def Waits (policy : Retry) (turns : List Turn) (half : Half) (number : Nat) : Prop :=
  ∃ socket, HeardAt policy turns number socket half ∧
    Holds policy turns socket number turns.length

theorem Waits.eq {other : Half} (h : Waits policy turns half number)
    (h' : Waits policy turns other number) : half = other := by
  obtain ⟨_, hheard, _⟩ := h
  obtain ⟨_, hheard', _⟩ := h'
  exact hheard.eq hheard'

theorem Waits.lt (h : Waits policy turns half number) : number < turns.length := by
  obtain ⟨_, hheard, _⟩ := h
  exact hheard.lt

theorem Waits.step (h : Waits policy turns half number) (hr : Run policy turns l)
    (hc : (l.step event).1.dialer.state = .connected) :
    Waits policy (turns ++ [⟨event, (l.step event).2⟩]) half number := by
  obtain ⟨socket, hheard, hholds⟩ := h
  refine ⟨socket, hheard.append _, ?_⟩
  rw [List.length_append, List.length_singleton]
  exact hholds.step (Nat.le_of_lt hheard.lt) hr hc

theorem Brings.heardAt (h : l.Brings event socket half) (hr : Run policy turns l) :
    HeardAt policy (turns ++ [⟨event, (l.step event).2⟩]) turns.length socket half := by
  refine ⟨_, l, List.getElem?_concat_length, ?_, h⟩
  rwa [List.take_append_of_le_length (Nat.le_refl _), List.take_length]

theorem Brings.holds (h : l.Brings event socket half) (hr : Run policy turns l) :
    Holds policy turns socket turns.length turns.length := by
  intro number m hlow hhigh hm
  rw [List.take_of_length_le hlow] at hm
  rw [hm.eq hr]
  exact h.accepts

theorem Brings.waits (h : l.Brings event socket half) (hr : Run policy turns l)
    (hc : (l.step event).1.dialer.state = .connected) :
    Waits policy (turns ++ [⟨event, (l.step event).2⟩]) half turns.length := by
  refine ⟨socket, h.heardAt hr, ?_⟩
  rw [List.length_append, List.length_singleton]
  exact (h.holds hr).step (Nat.le_refl _) hr hc

def Meeting.calls (meeting : Meeting) (l : Link) : List Call :=
  (l.session.audience.ids (.image meeting.cycler)).map fun id =>
    .image id meeting.cycler meeting.image

def Meeting.halves (meeting : Meeting) : List Nat := [meeting.frame, meeting.push]

/-- The meetings account for every image that is handed out, and no half that waits is in any. -/
structure Album (policy : Retry) (turns : List Turn) (l : Link) (meetings : List Meeting) :
    Prop where
  distinct : (meetings.flatMap (·.halves)).Nodup
  happens : ∀ meeting ∈ meetings, meeting.Happens policy turns
  waiting : ∀ half ∈ l.session.images.halves, ∃ number, Waits policy turns half number ∧
    number ∉ meetings.flatMap (·.halves)
  calls : ∀ number turn m, turns[number]? = some turn → Run policy (turns.take number) m →
    (called turn.log).filter (·.isImage) =
      (meetings.filter (·.last = number)).flatMap (·.calls m)

theorem start_album (policy : Retry) : Album policy [] (start policy) [] where
  distinct := List.nodup_nil
  happens := by simp
  waiting := by simp [start, Session.start, Pairing.empty, Pairing.halves]
  calls := by simp

variable {meetings : List Meeting} {meeting : Meeting}

theorem Meeting.Happens.last_lt (h : meeting.Happens policy turns) :
    meeting.last < turns.length := by
  have hf := h.frame.lt
  have hp := h.push.lt
  simp only [Meeting.last]
  omega

theorem Album.lt (h : Album policy turns l meetings)
    (hn : number ∈ meetings.flatMap (·.halves)) : number < turns.length := by
  obtain ⟨meeting, hm, hn⟩ := List.mem_flatMap.mp hn
  have hhappens := h.happens meeting hm
  simp only [Meeting.halves, List.mem_cons, List.not_mem_nil, or_false] at hn
  rcases hn with rfl | rfl
  · exact hhappens.frame.lt
  · exact hhappens.push.lt

theorem Run.turn_cases (hr : Run policy turns l) {turn : Turn}
    (hturn : (turns ++ [Turn.mk event (l.step event).2])[number]? = some turn)
    (hm : Run policy ((turns ++ [Turn.mk event (l.step event).2]).take number) m) :
    number < turns.length ∧ turns[number]? = some turn ∧ Run policy (turns.take number) m ∨
      number = turns.length ∧ turn = ⟨event, (l.step event).2⟩ ∧ m = l := by
  obtain ⟨hbound, _⟩ := List.getElem?_eq_some_iff.mp hturn
  rw [List.length_append, List.length_singleton] at hbound
  rcases Nat.lt_or_eq_of_le (Nat.lt_succ_iff.mp hbound) with hlt | rfl
  · rw [List.getElem?_append_left hlt] at hturn
    rw [List.take_append_of_le_length (Nat.le_of_lt hlt)] at hm
    exact Or.inl ⟨hlt, hturn, hm⟩
  · rw [List.getElem?_concat_length] at hturn
    rw [List.take_append_of_le_length (Nat.le_refl _), List.take_length] at hm
    exact Or.inr ⟨rfl, (Option.some.inj hturn).symm, hm.eq hr⟩

/-- The images of one more turn are those of the meetings that it completes. -/
theorem Album.calls_step (h : Album policy turns l meetings) (hr : Run policy turns l)
    (fresh : List Meeting) (hfresh : ∀ meeting ∈ fresh, meeting.last = turns.length)
    (hcalls : (called (l.step event).2).filter (·.isImage) = fresh.flatMap (·.calls l))
    (number : Nat) (turn : Turn) (m : Link)
    (hturn : (turns ++ [Turn.mk event (l.step event).2])[number]? = some turn)
    (hm : Run policy ((turns ++ [Turn.mk event (l.step event).2]).take number) m) :
    (called turn.log).filter (·.isImage) =
      ((meetings ++ fresh).filter (·.last = number)).flatMap (·.calls m) := by
  rw [List.filter_append]
  rcases hr.turn_cases hturn hm with ⟨hlt, hturn, hm⟩ | ⟨rfl, rfl, rfl⟩
  · have hnone : fresh.filter (·.last = number) = [] := by
      apply List.filter_eq_nil_iff.mpr
      intro meeting hmem
      have hlast := hfresh meeting hmem
      simp only [decide_eq_true_eq]
      omega
    rw [hnone, List.append_nil]
    exact h.calls number turn m hturn hm
  · have hnone : meetings.filter (·.last = turns.length) = [] := by
      apply List.filter_eq_nil_iff.mpr
      intro meeting hmem
      have hlast := (h.happens meeting hmem).last_lt
      simp only [decide_eq_true_eq]
      omega
    have hall : fresh.filter (·.last = turns.length) = fresh := by
      apply List.filter_eq_self.mpr
      intro meeting hmem
      simpa using hfresh meeting hmem
    rw [hnone, List.nil_append, hall]
    exact hcalls

/-- Two halves that fit have come over the same socket, and nothing is lost between them. -/
theorem Waits.meets {other : Half} {pair : String × List UInt8}
    (h : Waits policy turns other number) (hr : Run policy turns l)
    (hb : l.Brings event socket half) (hf : other.Fits half pair) :
    ∃ meeting : Meeting, meeting.Happens policy (turns ++ [⟨event, (l.step event).2⟩]) ∧
      meeting.last = turns.length ∧ meeting.halves.Perm [number, turns.length] ∧
      (meeting.cycler, meeting.image) = pair := by
  obtain ⟨socket', hheard, hholds⟩ := h
  have hlt := hheard.lt
  obtain rfl : socket' = socket := by
    have ha := (accepts_iff.mp (hholds.accepts (Nat.le_of_lt hlt) hr)).1
    rw [(accepts_iff.mp hb.accepts).1] at ha
    exact (Option.some.inj ha).symm
  have hold := hheard.append ⟨event, (l.step event).2⟩
  have hnew := hb.heardAt hr
  have hbetween := hholds.append (Nat.le_refl _) ⟨event, (l.step event).2⟩
  have hmin : min number turns.length = number := Nat.min_eq_left (Nat.le_of_lt hlt)
  have hmax : max number turns.length = turns.length := Nat.max_eq_right (Nat.le_of_lt hlt)
  cases hf with
  | @frame id image cycler =>
    refine ⟨⟨number, turns.length, socket', id, cycler, image⟩, ⟨hold, hnew, ?_⟩, hmax,
      List.Perm.refl _, rfl⟩
    rw [Meeting.last, hmin, hmax]
    exact hbetween
  | @announcement id image cycler =>
    refine ⟨⟨turns.length, number, socket', id, cycler, image⟩, ⟨hnew, hold, ?_⟩, ?_,
      List.Perm.swap _ _ _, rfl⟩
    · rw [Meeting.last, Nat.min_comm, hmin, Nat.max_comm, hmax]
      exact hbetween
    · rw [Meeting.last, Nat.max_comm, hmax]

/-- A half that goes on waiting is in no meeting. -/
theorem Album.waiting_step (h : Album policy turns l meetings) (hr : Run policy turns l)
    (hw : half ∈ l.session.images.halves) (hc : (l.step event).1.dialer.state = .connected) :
    ∃ number, Waits policy turns half number ∧
      Waits policy (turns ++ [⟨event, (l.step event).2⟩]) half number ∧
      number ∉ meetings.flatMap (·.halves) := by
  obtain ⟨number, hwaits, hfree⟩ := h.waiting half hw
  exact ⟨number, hwaits, hwaits.step hr hc, hfree⟩

/-- Without a meeting, what waits has waited before, or it has just come. -/
theorem Album.step_apart (h : Album policy turns l meetings) (hr : Run policy turns l)
    (hcalls : (called (l.step event).2).filter (·.isImage) = [])
    (hleft : ∀ left ∈ (l.step event).1.session.images.halves,
      left ∈ l.session.images.halves ∨ ∃ socket, l.Brings event socket left) :
    Album policy (turns ++ [⟨event, (l.step event).2⟩]) (l.step event).1 meetings where
  distinct := h.distinct
  happens := by
    intro meeting hm
    exact (h.happens meeting hm).append _
  waiting := by
    intro left hw
    have hc := (hr.step event).connected_of_waiting hw
    rcases hleft left hw with hold | ⟨socket, hb⟩
    · obtain ⟨number, _, hwaits, hfree⟩ := h.waiting_step hr hold hc
      exact ⟨number, hwaits, hfree⟩
    · refine ⟨turns.length, hb.waits hr hc, ?_⟩
      intro hm
      exact Nat.lt_irrefl _ (h.lt hm)
  calls := by
    have hstep := h.calls_step hr [] (by simp) hcalls
    rwa [List.append_nil] at hstep

/-- Two halves that meet have met no other ones. -/
theorem Album.step_meets (h : Album policy turns l meetings) (hr : Run policy turns l)
    {other : Half} {pair : String × List UInt8} (hb : l.Brings event socket half)
    (ht : l.session.TakesHalf half (l.reaction event)) (hw : other ∈ l.session.images.halves)
    (hf : other.Fits half pair) (hpair : (l.session.images.take half).2 = some pair)
    (hleft : ∀ left ∈ (l.session.images.take half).1.halves,
      left ∈ l.session.images.halves ∧ left ≠ other) :
    ∃ meeting, Album policy (turns ++ [⟨event, (l.step event).2⟩]) (l.step event).1
      (meetings ++ [meeting]) := by
  obtain ⟨number, hwaits, hfree⟩ := h.waiting other hw
  obtain ⟨meeting, hhappens, hlast, hhalves, rfl⟩ := hwaits.meets hr hb hf
  have hmem : ∀ n, n ∈ (meetings ++ [meeting]).flatMap (·.halves) ↔
      n ∈ meetings.flatMap (·.halves) ∨ n = number ∨ n = turns.length := by
    intro n
    simp [hhalves.mem_iff]
  refine ⟨meeting, ?_, ?_, ?_, ?_⟩
  · rw [List.flatMap_append, List.flatMap_singleton, List.nodup_append]
    refine ⟨h.distinct, ?_, ?_⟩
    · rw [hhalves.nodup_iff]
      simpa using Nat.ne_of_lt hwaits.lt
    · intro n hn n' hn' he
      subst he
      rcases List.mem_pair.mp (hhalves.mem_iff.mp hn') with rfl | rfl
      · exact hfree hn
      · exact Nat.lt_irrefl _ (h.lt hn)
  · intro earlier hm
    rcases List.mem_append.mp hm with hm | hm
    · exact (h.happens earlier hm).append _
    · rw [List.mem_singleton.mp hm]
      exact hhappens
  · intro left hl
    have hc := (hr.step event).connected_of_waiting hl
    rw [step_session, ht.images] at hl
    obtain ⟨hold, hne⟩ := hleft left hl
    obtain ⟨n, hbefore, hafter, hn⟩ := h.waiting_step hr hold hc
    refine ⟨n, hafter, ?_⟩
    intro hm
    -- a turn brings one half only, so the half that is left came in neither of the two turns
    rcases (hmem n).mp hm with hm | rfl | rfl
    · exact hn hm
    · exact hne (hbefore.eq hwaits)
    · exact Nat.lt_irrefl _ hbefore.lt
  · refine h.calls_step hr [meeting] (by simpa using hlast) ?_
    rw [called_step, ht.calls, hpair, List.flatMap_singleton]
    rfl

theorem run_album (h : Run policy turns l) : ∃ meetings, Album policy turns l meetings := by
  induction h with
  | start => exact ⟨[], start_album policy⟩
  | @step turns l event hr ih =>
    obtain ⟨meetings, halbum⟩ := ih
    rcases l.reaction_images event with ⟨socket, half, hb, ht⟩ | hn
    · rcases l.session.images.take_cases half with
        ⟨other, hw, pair, hf, hpair, hleft⟩ | ⟨hnone, hleft⟩
      · obtain ⟨meeting, hmore⟩ := halbum.step_meets hr hb ht hw hf hpair hleft
        exact ⟨meetings ++ [meeting], hmore⟩
      · refine ⟨meetings, halbum.step_apart hr ?_ ?_⟩
        · rw [called_step, ht.calls, hnone]
          rfl
        · intro left hm
          rw [step_session, ht.images] at hm
          rcases hleft left hm with hold | rfl
          · exact Or.inl hold
          · exact Or.inr ⟨socket, hb⟩
    · refine ⟨meetings, halbum.step_apart hr ?_ ?_⟩
      · rw [called_step]
        exact hn.calls
      · intro left hm
        rw [step_session] at hm
        exact Or.inl (hn.images left hm)

/-- Whatever images are handed out in a run come from meetings of a frame with a push of the same
image id over one connection. No frame and no push is in two meetings, and in the turn that
completes a meeting everyone who then listens to the cycler gets the image, once. -/
theorem images_meet_once (h : Run policy turns l) :
    ∃ meetings : List Meeting, (meetings.flatMap (·.halves)).Nodup ∧
      (∀ meeting ∈ meetings, meeting.Happens policy turns) ∧
      ∀ number turn m, turns[number]? = some turn → Run policy (turns.take number) m →
        (called turn.log).filter (·.isImage) =
            (meetings.filter (·.last = number)).flatMap (·.calls m) ∧
          ∀ cycler, (m.session.audience.ids (.image cycler)).Nodup := by
  obtain ⟨meetings, halbum⟩ := run_album h
  refine ⟨meetings, halbum.distinct, halbum.happens, ?_⟩
  intro number turn m hturn hm
  refine ⟨halbum.calls number turn m hturn hm, ?_⟩
  intro cycler
  exact (run_seated hm).once (.image cycler)

def announcing : List Event :=
  [.subscribe (.image "c"), .want true, .url "ws://a", .opened 1,
    .frame 1 [0, 0, 0, 0, 5, 1, 0, 0, 7], .closed 1, .elapsed, .opened 2,
    .text 2 ("\x7b\"type\":\"OutputsUpdated\",\"cycler\":\"c\",\"outputs\":[]," ++
      "\"image_id\":261\x7d")]

def announced : Link := (play .standard announcing).2

def laterFrame : Event := .frame 2 [9, 9, 9, 9, 5, 1, 0, 0, 8]

def lastTurn : Turn := ⟨laterFrame, (announced.step laterFrame).2⟩

theorem images_meet_once_announced :
    called lastTurn.log = [.image 1 "c" [8]] ∧
      ∃ meeting : Meeting,
        meeting.Happens .standard ((play .standard announcing).1 ++ [lastTurn]) ∧
        meeting.last = (play .standard announcing).1.length ∧ meeting.image = [8] := by
  have hcalled : called lastTurn.log = [.image 1 "c" [8]] := by decide +kernel
  have hrun := run_play .standard announcing
  obtain ⟨meetings, _, hhappen, hcalls⟩ := images_meet_once (hrun.step laterFrame)
  obtain ⟨himages, _⟩ := hcalls _ lastTurn announced List.getElem?_concat_length
    (by rw [List.take_append_of_le_length (Nat.le_refl _), List.take_length]; exact hrun)
  have hmem : Call.image 1 "c" [8] ∈ (called lastTurn.log).filter (·.isImage) := by
    rw [hcalled]
    exact List.mem_singleton.mpr rfl
  rw [himages] at hmem
  obtain ⟨meeting, hm, hcall⟩ := List.mem_flatMap.mp hmem
  obtain ⟨hm, hn⟩ := List.mem_filter.mp hm
  obtain ⟨id, _, hid⟩ := List.mem_map.mp hcall
  exact ⟨hcalled, meeting, hhappen meeting hm, of_decide_eq_true hn, (Call.image.inj hid).2.2⟩

end Link
end Downlink
