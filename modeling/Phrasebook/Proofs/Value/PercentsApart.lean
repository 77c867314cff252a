import Phrasebook.Proofs.Format.Percent
import Phrasebook.Proofs.Value.Encoded

namespace Phrasebook

open Text

def Formatter.Percentless : Formatter → Prop
  | formatString format => '%' ∉ format.toList
  | host _ => False
  | _ => True

/-- Values whose texts, and the names in them, keep percent signs apart. Formats that come along with
the elements of a list ask for none. -/
inductive Value.PercentsApart : Value → Prop
  | null : PercentsApart .null
  | bool {b : Bool} : PercentsApart (.bool b)
  | integer {n : Int64} : PercentsApart (.integer n)
  | float {x : Float} : PercentsApart (.float x)
  | text {s : String} (h : Text.PercentsApart s.toList) : PercentsApart (.text s)
  | moment {m : Moment} : PercentsApart (.moment m)
  | span {d : Span} : PercentsApart (.span d)
  | list {items : List Parameter} (h : ∀ item ∈ items, PercentsApart item.value)
      (hformat : ∀ item ∈ items, ∀ f ∈ item.defaultFormat, f.Percentless) : PercentsApart (.list items)
  | record {fields : List Field} (h : ∀ field ∈ fields, PercentsApart field.value)
      (hname : ∀ field ∈ fields, Text.PercentsApart field.name.toList) : PercentsApart (.record fields)

theorem Text.percentsApart_joined {texts : List String} (h : ∀ s ∈ texts, PercentsApart s.toList) :
    PercentsApart (joined ", " texts).toList := by
  fun_induction joined ", " texts with
  | case1 => decide
  | case2 s => exact h s List.mem_cons_self
  | case3 s rest _ ih =>
      rw [List.forall_mem_cons] at h
      rw [String.toList_append, String.toList_append]
      exact (h.1.append (by decide)).append (ih h.2)

theorem Text.eq_joined {α : Type} {f : List α → String} {g : α → String} (hnil : f [] = "") (hone : ∀ a, f [a] = g a)
    (hmore : ∀ a b l, f (a :: b :: l) = g a ++ ", " ++ f (b :: l)) (l : List α) : f l = joined ", " (l.map g) := by
  induction l with
  | nil => exact hnil
  | cons a l ih =>
      cases l with
      | nil => exact hone a
      | cons b l =>
          rw [hmore, ih]
          rfl

namespace Value

theorem itemsText_eq_joined (items : List Parameter) :
    itemsText items = joined ", " (items.map fun item => item.value.invariantText) :=
  eq_joined rfl (fun ⟨_, _, _⟩ => rfl) (fun ⟨_, _, _⟩ _ _ => rfl) items

theorem fieldsText_eq_joined (fields : List Field) :
    fieldsText fields = joined ", " (fields.map fun field => field.name ++ ": " ++ field.value.invariantText) :=
  eq_joined rfl (fun ⟨_, _⟩ => rfl) (fun ⟨_, _⟩ _ _ => rfl) fields

theorem plainItems_eq_joined (culture : Culture) (items : List Parameter) :
    plainItems culture items = joined ", " (items.map fun item => item.value.plainText culture) :=
  eq_joined rfl (fun ⟨_, _, _⟩ => rfl) (fun ⟨_, _, _⟩ _ _ => rfl) items

namespace PercentsApart

variable {value : Value}

theorem invariantText (h : value.PercentsApart) : Text.PercentsApart value.invariantText.toList := by
  induction h with
  | null => decide
  | @bool b => cases b <;> decide
  | integer => exact percentsApart_of_not_mem (not_mem_toString _)
  | float => exact percentsApart_of_not_mem (not_mem_floatText _)
  | text h => exact h
  | moment => exact percentsApart_of_not_mem (Format.not_mem_momentText _)
  | span => exact percentsApart_of_not_mem (Format.not_mem_spanText _)
  | list _ _ ih =>
      rw [Value.invariantText, itemsText_eq_joined]
      exact percentsApart_joined (List.forall_mem_map.mpr ih)
  | record _ hname ih =>
      rw [Value.invariantText, fieldsText_eq_joined, String.toList_append, String.toList_append]
      refine (PercentsApart.append (by decide) (percentsApart_joined (List.forall_mem_map.mpr ?_))).append (by decide)
      intro field hfield
      rw [String.toList_append, String.toList_append]
      exact ((hname field hfield).append (by decide)).append (ih field hfield)

theorem plainText (h : value.PercentsApart) {culture : Culture} (hculture : culture.Percentless) :
    Text.PercentsApart (value.plainText culture).toList := by
  induction h with
  | float =>
      rw [Value.plainText, String.toList_ofList]
      exact percentsApart_of_not_mem (Number.not_mem_plainFloat hculture _)
  | moment => exact percentsApart_of_not_mem (Format.not_mem_plainMoment hculture _)
  | list _ _ ih =>
      rw [Value.plainText, plainItems_eq_joined]
      exact percentsApart_joined (List.forall_mem_map.mpr ih)
  | record h hname => exact (PercentsApart.record h hname).invariantText
  | text h => exact h
  | null => exact PercentsApart.null.invariantText
  | bool => exact PercentsApart.bool.invariantText
  | integer => exact PercentsApart.integer.invariantText
  | span => exact PercentsApart.span.invariantText

theorem formatted (h : value.PercentsApart) {culture : Culture} (hculture : culture.Percentless) {format : String}
    (hformat : '%' ∉ format.toList) {s : String} (hs : value.formatted culture format = .ok s) :
    Text.PercentsApart s.toList := by
  cases h with
  | null =>
      cases hs
      decide
  | @bool b =>
      cases hs
      cases b <;> decide
  | integer => exact Number.percentsApart_write hculture hformat hs
  | float => exact Number.percentsApart_write hculture hformat hs
  | text h =>
      cases hs
      exact h
  | moment => exact percentsApart_of_not_mem (Format.not_mem_writeMoment hculture hformat hs)
  | span => exact percentsApart_of_not_mem (Format.not_mem_writeSpan hculture hformat hs)
  | list => cases hs
  | record => cases hs

end PercentsApart

end Value

theorem Formatter.percentsApart_applyOwn {f : Formatter} (hf : f.Percentless) {hosts : Host} {scene : Scene}
    {p : Parameter} (h : p.value.PercentsApart) {s : String} (hs : f.applyOwn hosts scene p = .ok s) :
    PercentsApart s.toList := by
  cases f with
  | roman =>
      simp only [applyOwn, Value.roman] at hs
      split at hs
      · exact percentsApart_of_not_mem (Roman.not_mem_write hs)
      · cases hs
  | letterCase mode =>
      cases hs
      exact (mode.recasing_apply _ _).percentsApart h.invariantText
  | formatString format => exact h.formatted scene.language.culture_percentless hf hs
  | default =>
      cases hs
      exact h.plainText scene.language.culture_percentless
  | host => exact hf.elim

structure Parameter.PercentsApart (p : Parameter) : Prop where
  value : p.value.PercentsApart
  own : ∀ f ∈ p.defaultFormat, f.Percentless

namespace Parameter.PercentsApart

variable {p : Parameter}

theorem plain {value : Value} (h : value.PercentsApart) : (Parameter.plain value).PercentsApart :=
  ⟨h, by rintro f ⟨⟩⟩

theorem withDefaultFormat (h : p.PercentsApart) {f : Formatter} (hf : f.Percentless) :
    (p.withDefaultFormat f).PercentsApart := by
  refine ⟨h.value, ?_⟩
  rintro _ ⟨⟩
  exact hf

theorem element (h : p.PercentsApart) {items : List Parameter} (hvalue : p.value = .list items) {item : Parameter}
    (hitem : item ∈ items) : (p.element item).PercentsApart := by
  have hlist := h.value
  rw [hvalue] at hlist
  cases hlist with
  | list hitems hformat =>
      refine ⟨by rw [p.value_element]; exact hitems item hitem, fun f hf => ?_⟩
      exact (mem_defaultFormat_element hf).elim (hformat item hitem f) (h.own f)

theorem atOffset (h : p.PercentsApart) (zone : Int) : (p.atOffset zone).PercentsApart := by
  unfold Parameter.atOffset
  split
  · exact ⟨.moment, h.own⟩
  · exact h

theorem apply (h : p.PercentsApart) {f : Formatter} (hf : f.Percentless) {hosts : Host} {scene : Scene}
    {s : String} (hs : f.apply hosts scene p = .ok s) : Text.PercentsApart s.toList :=
  Formatter.percentsApart_applyOwn (Formatter.own?_closed hf h.own) h.value hs

theorem wrap (hwrapping : p.wrapping = .encoded ∨ p.wrapping = .unencoded) {s : String}
    (hs : Text.PercentsApart s.toList) {hosts : Host} : Text.PercentsApart (p.wrap hosts s .html).toList := by
  unfold Parameter.wrap
  rcases hwrapping with hw | hw
  · rw [hw]
    dsimp only
    rw [Encoder.encode, String.toList_ofList]
    exact percentsApart_escapeHtml hs
  · rw [hw]
    exact hs

/-- What is written keeps percent signs apart, whether it is escaped or left as it is. -/
theorem write (h : p.PercentsApart) (hwrapping : p.wrapping = .encoded ∨ p.wrapping = .unencoded) {f : Formatter}
    (hf : f.Percentless) {ctx : Context} (hctx : ctx.encoder = .html) :
    Text.PercentsApart (p.write f ctx).toList := by
  have hoffset := h.atOffset ctx.zone
  unfold Parameter.write
  dsimp only
  rw [hctx]
  refine wrap (by rwa [p.wrapping_atOffset]) ?_
  split
  next s hs => exact hoffset.apply hf hs
  next => exact hoffset.value.invariantText

end Parameter.PercentsApart

theorem Evaluator.percentsApart_follow {value part : Value} {path : List String} (hvalue : value.PercentsApart)
    (h : follow value path = .ok part) : part.PercentsApart := by
  refine follow_closed (fun _ => .integer) (fun _ => .float) (fun fields h => ?_) .null hvalue h
  cases h with
  | record h => exact h

end Phrasebook
