import Downlink.Proofs.Images
import Downlink.Proofs.Table

/-!
What the limit on the halves that wait may cost. Without a limit, of the halves that came those wait
that have met none, and all others have met. As long as no more wait than the limit allows, it makes
no difference, so that of as many images as it allows every one is whole in the end, whatever the
order of their halves.
-/
namespace Downlink

def Half.id : Half → Nat
  | .frame id _ => id
  | .announcement id _ => id

structure Shot where
  id : Nat
  cycler : String
  image : List UInt8
  deriving DecidableEq, Repr

def Shot.halves (shot : Shot) : List Half :=
  [.frame shot.id shot.image, .announcement shot.id shot.cycler]

def Half.shot? (half : Half) (pair : Option (String × List UInt8)) : Option Shot :=
  pair.map fun (cycler, image) => ⟨half.id, cycler, image⟩

namespace Pairing

/-- A half comes, or those that wait are given up. -/
inductive Input where
  | half (half : Half)
  | clear
  deriving DecidableEq, Repr

/-- Takes a half without a limit on those that wait. -/
def keep (pairing : Pairing) : Half → Pairing × Option (String × List UInt8)
  | .frame id image =>
    match Table.get? id pairing.announcements with
    | some cycler =>
      ({ pairing with announcements := Table.erase id pairing.announcements }, some (cycler, image))
    | none => ({ pairing with frames := Table.insert id image pairing.frames }, none)
  | .announcement id cycler =>
    match Table.get? id pairing.frames with
    | some image => ({ pairing with frames := Table.erase id pairing.frames }, some (cycler, image))
    | none => ({ pairing with announcements := Table.insert id cycler pairing.announcements }, none)

section Inputs

variable (step : Pairing → Half → Pairing × Option (String × List UInt8))

def respond (pairing : Pairing) : Input → Pairing × Option (String × List UInt8)
  | .half half => step pairing half
  | .clear => (empty, none)

def answers (pairing : Pairing) : List Input → List (Pairing × Option (String × List UInt8))
  | [] => []
  | input :: inputs =>
    respond step pairing input :: answers (respond step pairing input).1 inputs

def after (pairing : Pairing) (inputs : List Input) : Pairing :=
  inputs.foldl (fun pairing input => (respond step pairing input).1) pairing

def shots (pairing : Pairing) (halves : List Half) : List Shot :=
  (halves.zip (answers step pairing (halves.map .half))).filterMap fun (half, answer) =>
    half.shot? answer.2

end Inputs

def Within (pairing : Pairing) : Prop :=
  pairing.frames.length ≤ capacity ∧ pairing.announcements.length ≤ capacity

variable {pairing : Pairing} {half : Half} {inputs : List Input} {halves came : List Half}
  {shot : Shot} {met : List Shot}

/-! The limit makes no difference as long as it is kept. -/

theorem trim_of_length_le {V : Type} {table : Table Nat V} (h : table.length ≤ capacity) :
    trim table = table := by
  rw [trim, Nat.sub_eq_zero_of_le h, List.drop_zero]

theorem take_eq_keep (h : (pairing.keep half).1.Within) :
    pairing.take half = pairing.keep half := by
  cases half with
  | frame id image =>
    cases hget : Table.get? id pairing.announcements with
    | some cycler => simp only [take, onFrame, keep, hget]
    | none =>
      simp only [keep, hget] at h
      simp only [take, onFrame, keep, hget, trim_of_length_le h.1]
  | announcement id cycler =>
    cases hget : Table.get? id pairing.frames with
    | some image => simp only [take, onAnnouncement, keep, hget]
    | none =>
      simp only [keep, hget] at h
      simp only [take, onAnnouncement, keep, hget, trim_of_length_le h.2]

theorem respond_take_eq {input : Input} (h : (respond keep pairing input).1.Within) :
    respond take pairing input = respond keep pairing input := by
  cases input with
  | half half => exact take_eq_keep h
  | clear => rfl

theorem answers_take_eq (h : ∀ answer ∈ answers keep pairing inputs, answer.1.Within) :
    answers take pairing inputs = answers keep pairing inputs := by
  induction inputs generalizing pairing with
  | nil => rfl
  | cons input inputs ih =>
    obtain ⟨hfirst, hrest⟩ := List.forall_mem_cons.mp h
    rw [answers, answers, respond_take_eq hfirst, ih hrest]

theorem after_take_eq (h : ∀ answer ∈ answers keep pairing inputs, answer.1.Within) :
    after take pairing inputs = after keep pairing inputs := by
  induction inputs generalizing pairing with
  | nil => rfl
  | cons input inputs ih =>
    obtain ⟨hfirst, hrest⟩ := List.forall_mem_cons.mp h
    rw [after, after, List.foldl_cons, List.foldl_cons, respond_take_eq hfirst]
    exact ih hrest

/-! What waits without a limit. -/

section Rows

variable {V W : Type} {table : Table Nat V} {own : List (Nat × V)} {other : List (Nat × W)}
  {id number : Nat} {value first : V} {mate second : W}

/-- Of the rows that came, those wait whose ids have not come on the other side. -/
structure Waits (table : Table Nat V) (own : List (Nat × V)) (other : List (Nat × W)) : Prop where
  sorted : table.Sorted
  mem_iff : ∀ row, row ∈ table ↔ row ∈ own ∧ row.1 ∉ other.map (·.1)

namespace Waits

theorem keys_subset (h : Waits table own other) : table.map (·.1) ⊆ own.map (·.1) :=
  List.map_subset _ fun row hm => ((h.mem_iff row).mp hm).1

theorem length_le (h : Waits table own other) : table.length ≤ own.length := by
  simpa using (List.subperm_of_subset h.sorted.nodup h.keys_subset).length_le

theorem erase (h : Waits table own other) (id : Nat) (value : W) :
    Waits (Table.erase id table) own (other ++ [(id, value)]) where
  sorted := Table.Sorted.erase h.sorted id
  mem_iff row := by
    simp only [Table.mem_erase_iff, h.mem_iff, List.map_append, List.map_singleton,
      List.mem_append, List.mem_singleton, not_or, and_assoc, ne_eq]

theorem erase_absent (h : Waits table own other) (hnone : Table.get? id table = none)
    (value : W) : Waits table own (other ++ [(id, value)]) := by
  have hleft := h.erase id value
  rwa [Table.erase_of_not_mem (Table.not_mem_of_get? hnone)] at hleft

theorem insert (h : Waits table own other) (hown : id ∉ own.map (·.1))
    (hother : id ∉ other.map (·.1)) (value : V) :
    Waits (Table.insert id value table) (own ++ [(id, value)]) other where
  sorted := Table.insert_sorted h.sorted id value
  mem_iff row := by
    have hid : id ∉ table.map (·.1) := fun hm => hown (h.keys_subset hm)
    rw [Table.mem_insert_iff h.sorted hid, h.mem_iff, List.mem_append, List.mem_singleton]
    constructor
    · rintro (rfl | ⟨hrow, hnot⟩)
      · exact ⟨Or.inr rfl, hother⟩
      · exact ⟨Or.inl hrow, hnot⟩
    · rintro ⟨hrow | rfl, hnot⟩
      · exact Or.inr ⟨hrow, hnot⟩
      · exact Or.inl rfl

theorem append (h : Waits table own other) (hother : id ∈ other.map (·.1)) (value : V) :
    Waits table (own ++ [(id, value)]) other where
  sorted := h.sorted
  mem_iff row := by
    rw [h.mem_iff, List.mem_append, List.mem_singleton]
    constructor
    · exact fun ⟨hrow, hnot⟩ => ⟨Or.inl hrow, hnot⟩
    · rintro ⟨hrow | rfl, hnot⟩
      · exact ⟨hrow, hnot⟩
      · exact absurd hother hnot

theorem not_mem (h : Waits table own other) (hother : id ∉ other.map (·.1))
    (hnone : Table.get? id table = none) : id ∉ own.map (·.1) := by
  intro hm
  obtain ⟨row, hrow, rfl⟩ := List.mem_map.mp hm
  exact Table.get?_eq_none_iff.mp hnone (List.mem_map_of_mem ((h.mem_iff row).mpr ⟨hrow, hother⟩))

end Waits

theorem not_mem_of_nodup (h : ((own ++ [(id, value)]).map (·.1)).Nodup) :
    id ∉ own.map (·.1) := by
  rw [List.map_append, List.map_singleton, List.nodup_append] at h
  exact fun hm => h.2.2 id hm id (List.mem_singleton_self _) rfl

/-- The rows of one id on both sides, when a row comes whose id is on the other side already. -/
theorem both_append_iff (hn : (other.map (·.1)).Nodup) (hm : (id, mate) ∈ other) :
    ((number, first) ∈ own ++ [(id, value)] ∧ (number, second) ∈ other) ↔
      ((number, first) ∈ own ∧ (number, second) ∈ other) ∨
        number = id ∧ first = value ∧ second = mate := by
  rw [List.mem_append, List.mem_singleton, or_and_right, Prod.mk.injEq]
  refine or_congr_right ?_
  constructor
  · rintro ⟨⟨rfl, rfl⟩, hs⟩
    exact ⟨rfl, rfl, (Prod.mk.inj (List.inj_on_of_nodup_map hn hs hm rfl)).2⟩
  · rintro ⟨rfl, rfl, rfl⟩
    exact ⟨⟨rfl, rfl⟩, hm⟩

theorem both_append_iff_of_not_mem (hother : id ∉ other.map (·.1)) :
    ((number, first) ∈ own ++ [(id, value)] ∧ (number, second) ∈ other) ↔
      (number, first) ∈ own ∧ (number, second) ∈ other := by
  rw [List.mem_append, List.mem_singleton, or_and_right, Prod.mk.injEq, or_iff_left_iff_imp]
  rintro ⟨⟨rfl, rfl⟩, hs⟩
  exact absurd (List.mem_map_of_mem hs) hother

end Rows

def frameRows (came : List Half) : List (Nat × List UInt8) :=
  came.filterMap fun
    | .frame id image => some (id, image)
    | .announcement _ _ => none

def announcementRows (came : List Half) : List (Nat × String) :=
  came.filterMap fun
    | .frame _ _ => none
    | .announcement id cycler => some (id, cycler)

theorem frameRows_append (came halves : List Half) :
    frameRows (came ++ halves) = frameRows came ++ frameRows halves :=
  List.filterMap_append

theorem announcementRows_append (came halves : List Half) :
    announcementRows (came ++ halves) = announcementRows came ++ announcementRows halves :=
  List.filterMap_append

theorem frameRows_length_le (came halves : List Half) :
    (frameRows came).length ≤ (frameRows (came ++ halves)).length := by
  simp [frameRows_append]

theorem announcementRows_length_le (came halves : List Half) :
    (announcementRows came).length ≤ (announcementRows (came ++ halves)).length := by
  simp [announcementRows_append]

section Came

variable {id : Nat} {image : List UInt8} {cycler : String}

@[simp] theorem frameRows_frame : frameRows (came ++ [.frame id image]) =
    frameRows came ++ [(id, image)] := by
  simp [frameRows]

@[simp] theorem frameRows_announcement :
    frameRows (came ++ [.announcement id cycler]) = frameRows came := by
  simp [frameRows]

@[simp] theorem announcementRows_frame :
    announcementRows (came ++ [.frame id image]) = announcementRows came := by
  simp [announcementRows]

@[simp] theorem announcementRows_announcement :
    announcementRows (came ++ [.announcement id cycler]) =
      announcementRows came ++ [(id, cycler)] := by
  simp [announcementRows]

def Distinct (came : List Half) : Prop :=
  ((frameRows came).map (·.1)).Nodup ∧ ((announcementRows came).map (·.1)).Nodup

structure Kept (came : List Half) (pairing : Pairing) (met : List Shot) : Prop where
  frames : Waits pairing.frames (frameRows came) (announcementRows came)
  announcements : Waits pairing.announcements (announcementRows came) (frameRows came)
  mem_iff : ∀ shot, shot ∈ met ↔
    (shot.id, shot.image) ∈ frameRows came ∧ (shot.id, shot.cycler) ∈ announcementRows came
  once : met.Nodup

theorem kept_nil : Kept [] empty [] where
  frames := ⟨List.Pairwise.nil, fun _ => by simp [empty, frameRows]⟩
  announcements := ⟨List.Pairwise.nil, fun _ => by simp [empty, announcementRows]⟩
  mem_iff := by simp [frameRows]
  once := List.nodup_nil

theorem Kept.step_frame (h : Kept came pairing met) (hd : Distinct (came ++ [.frame id image])) :
    Kept (came ++ [.frame id image]) (pairing.keep (.frame id image)).1
      (met ++ (Half.shot? (.frame id image) (pairing.keep (.frame id image)).2).toList) := by
  obtain ⟨hframes, hannouncements⟩ := hd
  rw [frameRows_frame] at hframes
  rw [announcementRows_frame] at hannouncements
  have hfresh := not_mem_of_nodup hframes
  cases hget : Table.get? id pairing.announcements with
  | some cycler =>
    obtain ⟨hcame, _⟩ := (h.announcements.mem_iff _).mp (Table.mem_of_get? hget)
    simp only [keep, hget, Half.shot?, Half.id, Option.map_some, Option.toList_some]
    refine ⟨?_, ?_, ?_, ?_⟩
    · simpa using h.frames.append (List.mem_map_of_mem hcame) image
    · simpa using h.announcements.erase id image
    · rintro ⟨number, told, bytes⟩
      rw [frameRows_frame, announcementRows_frame, both_append_iff hannouncements hcame,
        List.mem_append, List.mem_singleton, h.mem_iff, Shot.mk.injEq, @and_comm (told = _)]
    · refine h.once.append (List.nodup_singleton _) (List.disjoint_singleton.mpr fun hm => ?_)
      exact hfresh (List.mem_map_of_mem ((h.mem_iff _).mp hm).1)
  | none =>
    have hother := h.announcements.not_mem hfresh hget
    simp only [keep, hget, Half.shot?, Option.map_none, Option.toList_none, List.append_nil]
    refine ⟨?_, ?_, ?_, h.once⟩
    · simpa using h.frames.insert hfresh hother image
    · simpa using h.announcements.erase_absent hget image
    · intro shot
      rw [frameRows_frame, announcementRows_frame, both_append_iff_of_not_mem hother]
      exact h.mem_iff shot

theorem Kept.step_announcement (h : Kept came pairing met)
    (hd : Distinct (came ++ [.announcement id cycler])) :
    Kept (came ++ [.announcement id cycler]) (pairing.keep (.announcement id cycler)).1
      (met ++ (Half.shot? (.announcement id cycler)
        (pairing.keep (.announcement id cycler)).2).toList) := by
  obtain ⟨hframes, hannouncements⟩ := hd
  rw [frameRows_announcement] at hframes
  rw [announcementRows_announcement] at hannouncements
  have hfresh := not_mem_of_nodup hannouncements
  cases hget : Table.get? id pairing.frames with
  | some image =>
    obtain ⟨hcame, _⟩ := (h.frames.mem_iff _).mp (Table.mem_of_get? hget)
    simp only [keep, hget, Half.shot?, Half.id, Option.map_some, Option.toList_some]
    refine ⟨?_, ?_, ?_, ?_⟩
    · simpa using h.frames.erase id cycler
    · simpa using h.announcements.append (List.mem_map_of_mem hcame) cycler
    · rintro ⟨number, told, bytes⟩
      rw [frameRows_announcement, announcementRows_announcement, and_comm,
        both_append_iff hframes hcame, List.mem_append, List.mem_singleton, h.mem_iff,
        Shot.mk.injEq, @and_comm (_ ∈ frameRows came)]
    · refine h.once.append (List.nodup_singleton _) (List.disjoint_singleton.mpr fun hm => ?_)
      exact hfresh (List.mem_map_of_mem ((h.mem_iff _).mp hm).2)
  | none =>
    have hother := h.frames.not_mem hfresh hget
    simp only [keep, hget, Half.shot?, Option.map_none, Option.toList_none, List.append_nil]
    refine ⟨?_, ?_, ?_, h.once⟩
    · simpa using h.frames.erase_absent hget cycler
    · simpa using h.announcements.insert hfresh hother cycler
    · intro shot
      rw [frameRows_announcement, announcementRows_announcement, and_comm,
        both_append_iff_of_not_mem hother, and_comm]
      exact h.mem_iff shot

theorem Kept.step (h : Kept came pairing met) (hd : Distinct (came ++ [half])) :
    Kept (came ++ [half]) (pairing.keep half).1
      (met ++ (half.shot? (pairing.keep half).2).toList) := by
  cases half with
  | frame => exact h.step_frame hd
  | announcement => exact h.step_announcement hd

end Came

/-! From the first half to the last. -/

theorem shots_cons (step : Pairing → Half → Pairing × Option (String × List UInt8)) :
    shots step pairing (half :: halves) =
      (half.shot? (step pairing half).2).toList ++ shots step (step pairing half).1 halves := by
  simp only [shots, List.map_cons, answers, respond, List.zip_cons_cons, List.filterMap_cons]
  cases half.shot? (step pairing half).2 with
  | none => rfl
  | some shot => rfl

theorem Distinct.append_left (h : Distinct (came ++ halves)) : Distinct came := by
  simp only [Distinct, frameRows_append, announcementRows_append, List.map_append] at h
  exact ⟨h.1.of_append_left, h.2.of_append_left⟩

theorem Kept.run (h : Kept came pairing met) (hd : Distinct (came ++ halves)) :
    Kept (came ++ halves) (after keep pairing (halves.map .half))
      (met ++ shots keep pairing halves) := by
  induction halves generalizing came pairing met with
  | nil => simpa [after, shots] using h
  | cons half halves ih =>
    rw [List.append_cons] at hd ⊢
    rw [shots_cons, ← List.append_assoc]
    exact ih (h.step hd.append_left) hd

theorem Kept.within (h : Kept came pairing met) (hd : Distinct (came ++ halves))
    (hframes : (frameRows (came ++ halves)).length ≤ capacity)
    (hannouncements : (announcementRows (came ++ halves)).length ≤ capacity) :
    ∀ answer ∈ answers keep pairing (halves.map .half), answer.1.Within := by
  induction halves generalizing came pairing met with
  | nil => exact List.forall_mem_nil _
  | cons half halves ih =>
    rw [List.append_cons] at hd hframes hannouncements
    have hstep := h.step hd.append_left
    refine List.forall_mem_cons.mpr ⟨⟨?_, ?_⟩, ih hstep hd hframes hannouncements⟩
    · exact (hstep.frames.length_le.trans (frameRows_length_le _ _)).trans hframes
    · exact (hstep.announcements.length_le.trans (announcementRows_length_le _ _)).trans
        hannouncements

/-! The halves of images, in any order. -/

section Images

variable {images : List Shot}

theorem frameRows_flatMap (images : List Shot) :
    frameRows (images.flatMap Shot.halves) = images.map fun shot => (shot.id, shot.image) := by
  induction images with
  | nil => rfl
  | cons shot images ih =>
    rw [List.flatMap_cons, frameRows_append, ih]
    rfl

theorem announcementRows_flatMap (images : List Shot) :
    announcementRows (images.flatMap Shot.halves) =
      images.map fun shot => (shot.id, shot.cycler) := by
  induction images with
  | nil => rfl
  | cons shot images ih =>
    rw [List.flatMap_cons, announcementRows_append, ih]
    rfl

theorem frameRows_perm (h : halves.Perm (images.flatMap Shot.halves)) :
    (frameRows halves).Perm (images.map fun shot => (shot.id, shot.image)) := by
  rw [← frameRows_flatMap]
  exact h.filterMap _

theorem announcementRows_perm (h : halves.Perm (images.flatMap Shot.halves)) :
    (announcementRows halves).Perm (images.map fun shot => (shot.id, shot.cycler)) := by
  rw [← announcementRows_flatMap]
  exact h.filterMap _

theorem frameRows_keys_perm (h : halves.Perm (images.flatMap Shot.halves)) :
    ((frameRows halves).map (·.1)).Perm (images.map (·.id)) := by
  simpa [Function.comp_def] using (frameRows_perm h).map (·.1)

theorem announcementRows_keys_perm (h : halves.Perm (images.flatMap Shot.halves)) :
    ((announcementRows halves).map (·.1)).Perm (images.map (·.id)) := by
  simpa [Function.comp_def] using (announcementRows_perm h).map (·.1)

theorem distinct_of_perm (hids : (images.map (·.id)).Nodup)
    (h : halves.Perm (images.flatMap Shot.halves)) : Distinct halves :=
  ⟨(frameRows_keys_perm h).nodup_iff.mpr hids, (announcementRows_keys_perm h).nodup_iff.mpr hids⟩

theorem Kept.eq_empty (h : Kept halves pairing met)
    (hp : halves.Perm (images.flatMap Shot.halves)) : pairing = empty := by
  have hkeys := (frameRows_keys_perm hp).trans (announcementRows_keys_perm hp).symm
  have hframes : pairing.frames = [] := by
    refine List.eq_nil_iff_forall_not_mem.mpr fun row hm => ?_
    obtain ⟨hrow, hnot⟩ := (h.frames.mem_iff row).mp hm
    exact hnot (hkeys.mem_iff.mp (List.mem_map_of_mem hrow))
  have hannouncements : pairing.announcements = [] := by
    refine List.eq_nil_iff_forall_not_mem.mpr fun row hm => ?_
    obtain ⟨hrow, hnot⟩ := (h.announcements.mem_iff row).mp hm
    exact hnot (hkeys.mem_iff.mpr (List.mem_map_of_mem hrow))
  obtain ⟨frames, announcements⟩ := pairing
  cases hframes
  cases hannouncements
  rfl

theorem Kept.perm (h : Kept halves pairing met) (hids : (images.map (·.id)).Nodup)
    (hp : halves.Perm (images.flatMap Shot.halves)) : met.Perm images := by
  refine (List.perm_ext_iff_of_nodup h.once hids.of_map).mpr fun shot => ?_
  rw [h.mem_iff, (frameRows_perm hp).mem_iff, (announcementRows_perm hp).mem_iff, List.mem_map,
    List.mem_map]
  constructor
  · rintro ⟨⟨one, hone, hframe⟩, other, hother, hannouncement⟩
    obtain ⟨hid, himage⟩ := Prod.mk.inj hframe
    obtain ⟨hid', hcycler⟩ := Prod.mk.inj hannouncement
    obtain rfl := List.inj_on_of_nodup_map hids hone hother (hid.trans hid'.symm)
    obtain ⟨id, cycler, image⟩ := shot
    cases hid
    cases himage
    cases hcycler
    exact hone
  · exact fun hm => ⟨⟨shot, hm, rfl⟩, shot, hm, rfl⟩

/-- As long as without a limit no more halves of one kind would wait than the limit allows, every
answer and what waits after it are as without one. So of up to as many images each is made whole
once, with its own bytes and cycler, in whatever order their halves come, and none waits after
that. -/
theorem agrees_within_capacity :
    (∀ pairing inputs, (∀ answer ∈ answers keep pairing inputs, answer.1.Within) →
        answers take pairing inputs = answers keep pairing inputs) ∧
      ∀ images halves, (images.map Shot.id).Nodup → images.length ≤ capacity →
        halves.Perm (images.flatMap Shot.halves) →
          (shots take empty halves).Perm images ∧
            after take empty (halves.map .half) = empty := by
  refine ⟨fun pairing inputs h => answers_take_eq h, ?_⟩
  intro images halves hids hlength hp
  have hdistinct : Distinct ([] ++ halves) := distinct_of_perm hids hp
  have hwithin : ∀ answer ∈ answers keep empty (halves.map .half), answer.1.Within := by
    refine kept_nil.within hdistinct ?_ ?_
    · rwa [List.nil_append, (frameRows_perm hp).length_eq, List.length_map]
    · rwa [List.nil_append, (announcementRows_perm hp).length_eq, List.length_map]
  have hkept : Kept halves (after take empty (halves.map .half)) (shots take empty halves) := by
    rw [after_take_eq hwithin, shots, answers_take_eq hwithin]
    exact kept_nil.run hdistinct
  exact ⟨hkept.perm hids hp, hkept.eq_empty hp⟩

def album : List Shot :=
  (List.range capacity).map fun id => ⟨id, "c", [UInt8.ofNat id]⟩

def framesFirst : List Half :=
  (album.map fun shot => .frame shot.id shot.image) ++
    album.map fun shot => .announcement shot.id shot.cycler

/-- A frame takes the place of one that waits, and another is given up before its announcement. -/
def overtaken : List Input :=
  [.half (.frame 5 [1]), .half (.frame 5 [2]), .half (.announcement 5 "a"), .half (.frame 6 [3]),
    .clear, .half (.announcement 6 "b")]

theorem agrees_within_capacity_album :
    (answers take empty overtaken).map (·.2) =
        [none, none, some ("a", [2]), none, none, none] ∧
      answers take empty overtaken = answers keep empty overtaken ∧
      (shots take empty framesFirst).Perm album ∧
      after take empty (framesFirst.map .half) = empty := by
  obtain ⟨hagrees, hwhole⟩ := agrees_within_capacity
  refine ⟨by decide +kernel, hagrees empty overtaken ?_, ?_⟩
  · unfold Within
    decide +kernel
  · exact hwhole album framesFirst (by decide +kernel) (by decide +kernel) (by decide +kernel)

end Images

end Pairing
end Downlink
