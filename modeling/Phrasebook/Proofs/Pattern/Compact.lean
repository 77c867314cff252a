import Phrasebook.Proofs.Pattern.Shape

namespace Phrasebook

section

variable (f : Expression → Expression) (g : Option NullCase → List Case → List Case)

mutual

/-- Deletes the empty texts of every list of parts; `f` is done to conditions, `g` to the cases of
a switch. -/
def Part.tidy : Part → Part
  | .text s => .text s
  | .custom node => .custom node
  | .reference r => .reference r
  | .switch subject template cases nullCase =>
    .switch subject template (g (tidyNullCase nullCase) (tidyCases cases)) (tidyNullCase nullCase)
  | .group name body => .group name (tidyBody body)

def tidyParts : List Part → List Part
  | [] => []
  | p :: rest => if p.isEmptyText then tidyParts rest else p.tidy :: tidyParts rest

def tidyBody : Option (List Part) → Option (List Part)
  | none => none
  | some body => some (tidyParts body)

def tidyNullCase : Option NullCase → Option NullCase
  | none => none
  | some ⟨position, body⟩ => some ⟨position, tidyParts body⟩

def tidyCases : List Case → List Case
  | [] => []
  | ⟨condition, body⟩ :: rest => ⟨condition.map f, tidyParts body⟩ :: tidyCases rest

end

variable {f g}

theorem Part.isText_tidy (p : Part) : (p.tidy f g).isText = p.isText := by
  cases p <;> rfl

theorem Part.isEmptyText_tidy (p : Part) : (p.tidy f g).isEmptyText = p.isEmptyText := by
  cases p <;> rfl

theorem tidyParts_eq_filter (e : List Part) :
    tidyParts f g e = (e.map (Part.tidy f g)).filter fun p => !p.isEmptyText := by
  induction e with
  | nil => rfl
  | cons p e ih =>
      rw [tidyParts, List.map_cons, ih]
      cases hp : p.isEmptyText with
      | true => rw [if_pos rfl, List.filter_cons_of_neg (by rw [p.isEmptyText_tidy, hp]; decide)]
      | false =>
          rw [if_neg Bool.false_ne_true, List.filter_cons_of_pos (by rw [p.isEmptyText_tidy, hp]; rfl)]

theorem tidyParts_eq_nil_iff {e : List Part} :
    tidyParts f g e = [] ↔ ∀ p ∈ e, p.isEmptyText = true := by
  rw [tidyParts_eq_filter, List.filter_eq_nil_iff, List.forall_mem_map]
  simp only [Part.isEmptyText_tidy, Bool.not_eq_true', Bool.not_eq_false]

theorem tidyCases_eq_map (cases : List Case) :
    tidyCases f g cases = cases.map fun c => ⟨c.condition.map f, tidyParts f g c.body⟩ := by
  induction cases with
  | nil => rfl
  | cons c cases ih =>
      obtain ⟨condition, body⟩ := c
      rw [tidyCases, ih, List.map_cons]

theorem tidyBody_eq_map (body : Option (List Part)) :
    tidyBody f g body = body.map (tidyParts f g) := by
  cases body <;> rfl

theorem tidyNullCase_eq_map (nullCase : Option NullCase) :
    tidyNullCase f g nullCase = nullCase.map fun n => ⟨n.position, tidyParts f g n.body⟩ := by
  rcases nullCase with _ | ⟨position, body⟩ <;> rfl

theorem Part.atoms_tidy (p : Part) : (p.tidy f g).atoms = p.atoms.map (Sum.map id (Part.tidy f g)) := by
  cases p with
  | text s => simp [Part.tidy, Part.atoms]
  | _ => rfl

theorem Expression.Separated.map_tidy {e : Expression} (h : Separated e) :
    Separated (e.map (Part.tidy f g)) := by
  refine h.congr ?_
  rw [List.map_map]
  exact List.map_congr_left fun p _ => p.isText_tidy

theorem Expression.tidyParts_congr {f' : Expression → Expression}
    {g' : Option NullCase → List Case → List Case} {e e' : Expression} (he : Separated e)
    (he' : Separated e')
    (h : (atoms e).map (Sum.map id (Part.tidy f g)) = (atoms e').map (Sum.map id (Part.tidy f' g'))) :
    tidyParts f g e = tidyParts f' g' e' := by
  rw [tidyParts_eq_filter, tidyParts_eq_filter]
  apply filter_eq_of_atoms_eq he.map_tidy he'.map_tidy
  rw [atoms_map Part.atoms_tidy, atoms_map Part.atoms_tidy, h]

end

/-- An empty case without a condition is printed as nothing, which alone is read as no case. -/
def withoutLoneCase : Option NullCase → List Case → List Case
  | none, [⟨none, []⟩] => []
  | _, cases => cases

theorem Expression.text?_eq_some_iff {e : Expression} {s : String} :
    e.text? = some s ↔ e = Expression.ofText s := by
  unfold Expression.text?
  split
  · constructor
    · rintro ⟨⟩
      rfl
    · rintro ⟨⟩
      rfl
  next h =>
    constructor
    · rintro ⟨⟩
    · exact fun he => (h s he).elim

def Part.conditions : Part → List String
  | .switch _ _ cases _ => cases.filterMap fun c => c.condition.bind Expression.text?
  | _ => []

theorem Part.mem_conditions_switch {subject : Reference} {template : Option String} {cases : List Case}
    {nullCase : Option NullCase} {s : String} :
    s ∈ (Part.switch subject template cases nullCase).conditions ↔
      ∃ c ∈ cases, c.condition = some (Expression.ofText s) := by
  simp only [Part.conditions, List.mem_filterMap, Option.bind_eq_some_iff,
    Expression.text?_eq_some_iff, exists_eq_right]

/-- After white space, a question mark in front of a condition would make its case the null case. -/
def Part.NoNullMark (p : Part) : Prop :=
  ∀ s ∈ p.conditions, (Text.trimStart s.toList).head? ≠ some '?'

instance : DecidablePred Part.NoNullMark := fun p =>
  inferInstanceAs (Decidable (∀ s ∈ p.conditions, (Text.trimStart s.toList).head? ≠ some '?'))

def Part.isLoneEmptyCase : Part → Bool
  | .switch _ _ [⟨none, [.text s]⟩] none => s.isEmpty
  | _ => false

abbrev Part.compact : Part → Part :=
  Part.tidy id fun _ cases => cases

abbrev Part.reread : Part → Part :=
  Part.tidy (Expression.mapFirstText Text.trimStart) withoutLoneCase

namespace Expression

abbrev compact (e : Expression) : Expression :=
  tidyParts id (fun _ cases => cases) e

/-- What is left of an expression when its printed form is read: blanks before a condition go, and
so does an empty case that stands alone. -/
abbrev reread (e : Expression) : Expression :=
  tidyParts (mapFirstText Text.trimStart) withoutLoneCase e

end Expression

end Phrasebook
