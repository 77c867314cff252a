import Phrasebook.Proofs.Dialect.Binding
import Phrasebook.Proofs.Text.Blank
import Phrasebook.Proofs.Pattern.Characters
import Phrasebook.Proofs.Text.Pieces

namespace Phrasebook

def Formatter.isBuiltIn : Formatter → Bool
  | .host _ => false
  | _ => true

def LookupArgument.Uses (F : Formatter → Prop) (L : String → Prop) : LookupArgument → Prop
  | .skipped => True
  | .literal s => L s
  | .parameter _ format => ∀ f ∈ format, F f

def Evaluator.Uses (F : Formatter → Prop) (L : String → Prop) : Evaluator → Prop
  | .lookup _ arguments => ∀ a ∈ arguments, a.Uses F L
  | .host _ => False
  | _ => True

def BoundPart.Uses (F : Formatter → Prop) (L : String → Prop) : BoundPart → Prop
  | .text s => L s
  | .parameter _ evaluator formatter => evaluator.Uses F L ∧ F formatter
  | .switch _ evaluator format _ _ _ => evaluator.Uses F L ∧ ∀ f ∈ format, F f
  | .group _ evaluator _ _ => evaluator.Uses F L
  | .custom _ _ => False

theorem mem_mapM_ok {ε α β : Type} {f : α → Except ε β} {l : List α} {bs : List β}
    (h : l.mapM f = .ok bs) : ∀ b ∈ bs, ∃ a ∈ l, f a = .ok b := by
  rw [mapM_eq_ok_iff] at h
  induction h with
  | nil => exact List.forall_mem_nil _
  | cons hb _ ih =>
      rw [List.forall_mem_cons]
      refine ⟨⟨_, List.mem_cons_self, hb⟩, fun b hmem => ?_⟩
      obtain ⟨a, ha, hab⟩ := ih b hmem
      exact ⟨a, List.mem_cons_of_mem _ ha, hab⟩

namespace Dialect

/-- A dialect with the standard evaluators and without custom parts, in which what is written with
characters in `P` spells formatters in `F` and texts in `L`. -/
structure Spells (d : Dialect) (P : Char → Prop) (F : Formatter → Prop) (L : String → Prop) : Prop where
  evaluators : d.evaluators = [.lookup, .property, .direct]
  customParts : d.customParts = []
  formatter : ∀ site format f, (∀ c ∈ format.toList, P c) → d.formatter site format = .ok f → F f
  literal : ∀ s : String, (∀ c ∈ s.toList, P c) → L s

namespace Spells

variable {d : Dialect} {P : Char → Prop} {F : Formatter → Prop} {L : String → Prop} (h : d.Spells P F L)

theorem quoted?_subset {s literal : List Char} (h : quoted? s = some literal) : literal ⊆ s := by
  unfold quoted? at h
  dsimp only at h
  split at h
  · split at h
    · cases h
      exact List.subset_cons_of_subset _ (List.dropLast_prefix _).subset
    · cases h
  · cases h

include h

theorem argument {s : List Char} (hs : ∀ c ∈ s, P c) {a : LookupArgument} (ha : d.argument s = .ok a) :
    a.Uses F L := by
  have htrim : ∀ c ∈ Text.trim s, P c := fun c hc => hs c (Text.trim_subset s hc)
  unfold Dialect.argument at ha
  dsimp only at ha
  split at ha
  next literal hliteral =>
    cases ha
    refine h.literal _ fun c hc => htrim c (quoted?_subset hliteral ?_)
    rwa [String.toList_ofList] at hc
  next =>
    split at ha
    next name format hsplit =>
      dsimp only at ha
      split at ha
      · cases ha
        trivial
      · obtain ⟨f, hf, rfl⟩ := map_eq_ok_iff.mp ha
        rintro _ ⟨⟩
        refine h.formatter .argument _ f (fun c hc => htrim c ?_) hf
        rw [String.toList_ofList] at hc
        rw [Text.eq_append_of_splitOnce hsplit]
        exact List.mem_append_right _ (Text.trim_subset format hc)
    next =>
      dsimp only at ha
      split at ha
      · cases ha
        trivial
      · cases ha
        rintro f ⟨⟩

theorem lookup? {ref : Reference} (href : ∀ c ∈ ref.chars, P c) {evaluator : Evaluator}
    (he : d.lookup? ref = .ok (some evaluator)) : evaluator.Uses F L := by
  unfold Dialect.lookup? at he
  split at he
  · obtain ⟨arguments, harguments, ⟨⟩⟩ := map_eq_ok_iff.mp he
    unfold Dialect.arguments at harguments
    split at harguments
    · cases harguments
      rintro a ⟨⟩
    next text htext =>
      intro a ha
      obtain ⟨s, hs, hargument⟩ := mem_mapM_ok harguments a ha
      refine h.argument (fun c hc => href c ?_) hargument
      rw [Reference.chars, htext]
      exact List.mem_append_right _ (Text.mem_of_mem_splitOn hs c hc)
  · cases he

theorem evaluator {site : Site} {ref : Reference} (href : ∀ c ∈ ref.chars, P c) {evaluator : Evaluator}
    (he : d.evaluator site ref = .ok evaluator) : evaluator.Uses F L := by
  rw [Dialect.evaluator, h.evaluators] at he
  simp only [evaluatorFrom, acceptEvaluator?, bind_eq_ok_iff] at he
  obtain ⟨found, hfound, he⟩ := he
  cases found with
  | some e =>
      cases he
      exact h.lookup? href hfound
  | none =>
      cases hproperty : property? ref with
      | some e =>
          rw [hproperty] at he
          cases he
          unfold property? at hproperty
          split at hproperty <;> cases hproperty
          trivial
      | none =>
          rw [hproperty] at he
          cases he
          trivial

theorem bindPart {p : Part} (hp : ∀ c ∈ p.chars, P c) {q : BoundPart} (hq : d.bindPart p = .ok q) : q.Uses F L := by
  cases p with
  | text s =>
      cases hq
      exact h.literal s hp
  | reference ref =>
      obtain ⟨evaluator, formatter, he, hf, rfl⟩ := bindPart_reference_eq_ok_iff.mp hq
      exact ⟨h.evaluator hp he, h.formatter _ _ _ (fun c hc => hp c (by simp [Part.chars, Reference.chars, hc])) hf⟩
  | switch subject template cases nullCase =>
      obtain ⟨evaluator, formatter, cs, n, cs', he, hf, -, -, -, rfl⟩ := bindPart_switch_eq_ok_iff.mp hq
      refine ⟨h.evaluator (fun c hc => hp c (List.mem_append_left _ hc)) he, ?_⟩
      split
      · rintro f ⟨⟩
      · rintro f ⟨⟩
        exact h.formatter _ _ _ (fun c hc => hp c (by simp [Part.chars, Reference.chars, hc])) hf
  | group name body =>
      obtain ⟨evaluator, b, he, -, rfl⟩ := bindPart_group_eq_ok_iff.mp hq
      exact h.evaluator (fun c hc => hp c (List.mem_cons_of_mem _ (by simpa [Reference.chars] using hc))) he
  | custom node =>
      obtain ⟨part, hpart, -⟩ := bindPart_custom_eq_ok_iff.mp hq
      rw [Dialect.customPart, h.customParts] at hpart
      cases hpart

end Spells

theorem formatter_eq_ok {d : Dialect} (hd : d.formatters = [.roman, .letterCase, .formatString, .default]) {site : Site}
    {format : String} {f : Formatter} (h : d.formatter site format = .ok f) :
    f = .roman ∨ (∃ mode, f = .letterCase mode) ∨ f = .formatString format ∨ f = .default := by
  unfold formatter at h
  split at h
  next g hfind =>
    cases h
    obtain ⟨rule, hrule, haccept⟩ := List.exists_of_findSome?_eq_some hfind
    cases rule with
    | host f => simp [hd] at hrule
    | letterCase =>
        obtain ⟨mode, -, rfl⟩ := Option.map_eq_some_iff.mp haccept
        exact .inr (.inl ⟨mode, rfl⟩)
    | roman | formatString | default =>
        simp only [FormatterRule.accept?] at haccept
        split at haccept <;> cases haccept
        simp
  next => cases h

theorem standard_spells : standard.Spells (fun _ => True) (fun f => f.isBuiltIn = true) fun _ => True where
  evaluators := rfl
  customParts := rfl
  formatter site format f _ h := by
    rcases formatter_eq_ok rfl h with rfl | ⟨mode, rfl⟩ | rfl | rfl <;> rfl
  literal _ _ := trivial

end Dialect

end Phrasebook
