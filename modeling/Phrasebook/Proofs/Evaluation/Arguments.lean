import Phrasebook.Engine
import Phrasebook.Proofs.Dialect.Binding
import Phrasebook.Proofs.Evaluation.Relation
import Phrasebook.Proofs.Text.Recasing
import Phrasebook.Proofs.Value.Parameters

namespace Phrasebook

theorem toString_nat_injective : Function.Injective (toString : Nat → String) := by
  intro m n h
  have hdigits : Nat.toDigits 10 m = Nat.toDigits 10 n := by
    rw [← Nat.toList_repr, ← Nat.toList_repr, ← Nat.toString_eq_repr, ← Nat.toString_eq_repr, h]
  calc
    m = Nat.ofDigitChars 10 (Nat.toDigits 10 m) 0 := Nat.ofDigitChars_ten_toDigits.symm
    _ = Nat.ofDigitChars 10 (Nat.toDigits 10 n) 0 := by rw [hdigits]
    _ = n := Nat.ofDigitChars_ten_toDigits

namespace LookupArgument

/-- The parameter that an argument passes, unless it is skipped. -/
def passed? (layers : Layers) : LookupArgument → Option Parameter
  | skipped => none
  | literal s => some (.plain (.text s))
  | parameter name none => some ((layers.get? name).getD (.plain .null))
  | parameter name (some f) => some (((layers.get? name).getD (.plain .null)).withDefaultFormat f)

def name? : LookupArgument → Option String
  | parameter name _ => some name
  | _ => none

end LookupArgument

namespace Evaluator

variable {layers : Layers} {parameters : ParameterSet}

theorem get?_pass {position : Nat} {a : LookupArgument} {p : Parameter} (h : a.passed? layers = some p) :
    (pass layers parameters position a).get? (toString position) = some p := by
  cases a with
  | skipped => cases h
  | literal s =>
      cases h
      exact (ParameterSet.get?_set _ _ _ _).trans (if_pos rfl)
  | parameter name format =>
      cases format <;> cases h <;> exact (ParameterSet.get?_set _ _ _ _).trans (if_pos rfl)

theorem get?_pass_other {position i : Nat} (hi : i ≠ position) {a : LookupArgument}
    (hname : ∀ name ∈ a.name?, Text.lowered name ≠ toString i) :
    (pass layers parameters position a).get? (toString i) = parameters.get? (toString i) := by
  have hposition : Text.lowered (toString i) ≠ Text.lowered (toString position) := by
    rw [Text.lowered_toString, Text.lowered_toString]
    exact toString_nat_injective.ne hi
  cases a with
  | skipped => rfl
  | literal s => exact (ParameterSet.get?_set _ _ _ _).trans (if_neg hposition)
  | parameter name format =>
      have hnamed : Text.lowered (toString i) ≠ Text.lowered name := by
        rw [Text.lowered_toString]
        exact (hname name rfl).symm
      refine (ParameterSet.get?_set _ _ _ _).trans ((if_neg hposition).trans ?_)
      exact (ParameterSet.get?_set _ _ _ _).trans (if_neg hnamed)

theorem get?_passAll_other {position i : Nat} (hi : i < position) {arguments : List LookupArgument}
    (hnames : ∀ a ∈ arguments, ∀ name ∈ a.name?, Text.lowered name ≠ toString i) :
    (passAll layers parameters position arguments).get? (toString i) = parameters.get? (toString i) := by
  induction arguments generalizing parameters position with
  | nil => rfl
  | cons a rest ih =>
      rw [List.forall_mem_cons] at hnames
      rw [passAll, ih (Nat.lt_succ_of_lt hi) hnames.2, get?_pass_other (Nat.ne_of_lt hi) hnames.1]

/-- An argument is found by its position, if none that comes after it has that for its name. -/
theorem get?_passAll {position i : Nat} {arguments : List LookupArgument} {a : LookupArgument} {p : Parameter}
    (ha : arguments[i]? = some a) (hp : a.passed? layers = some p)
    (hlater : ∀ j b, i < j → arguments[j]? = some b →
      ∀ name ∈ b.name?, Text.lowered name ≠ toString (position + i)) :
    (passAll layers parameters position arguments).get? (toString (position + i)) = some p := by
  induction arguments generalizing parameters position i with
  | nil => cases ha
  | cons b rest ih =>
      rw [passAll]
      cases i with
      | zero =>
          obtain rfl := Option.some.inj ha
          have hrest : ∀ c ∈ rest, ∀ name ∈ c.name?, Text.lowered name ≠ toString position := by
            intro c hc
            obtain ⟨j, hj⟩ := List.getElem?_of_mem hc
            exact hlater (j + 1) c (Nat.succ_pos j) hj
          exact (get?_passAll_other (Nat.lt_add_one position) hrest).trans (get?_pass hp)
      | succ i =>
          have hshift : position + (i + 1) = position + 1 + i := by omega
          rw [hshift] at hlater ⊢
          exact ih ha fun j c hj hc => hlater (j + 1) c (Nat.succ_lt_succ hj) hc

end Evaluator

open Run

theorem Run.within_ok {α : Type} {call : Call} {act : Run α} {ctx : Context}
    (hlength : ctx.calls.length < ctx.maxDepth) (hname : ∀ c ∈ ctx.calls, c.name ≠ call.name) :
    within call act ctx =
      let outcome := act { ctx with
        calls := ctx.calls ++ [call]
        journal := .entered (ctx.calls ++ [call]) :: ctx.journal }
      (outcome.1, { outcome.2 with calls := outcome.2.calls.dropLast }) := by
  rw [within, bind_apply, enter_ok hlength hname]
  rfl

theorem Run.asChild_map {α β : Type} (space : String) (parameters : ParameterSet) (act : Run α) (f : α → β)
    (ctx : Context) :
    (do return f (← Run.asChild space parameters act)) ctx =
      let outcome := act { ctx with space, layers := [parameters] }
      (outcome.1.map f, { ctx with journal := outcome.2.journal }) := by
  rw [bind_apply, asChild]
  dsimp only
  rcases act { ctx with space, layers := [parameters] } with ⟨_ | a, after⟩ <;> rfl

def Context.called (ctx : Context) (space key pattern : String) (parameters : ParameterSet) : Context :=
  { ctx with
    space
    layers := [parameters]
    calls := ctx.calls ++ [.stored space key]
    journal := .compiled pattern :: .entered (ctx.calls ++ [.stored space key]) :: ctx.journal }

namespace Evaluator

section

variable {deeper : Deeper} {ctx : Context} {lookupKey : LookupKey} {arguments : List LookupArgument}
  {space key pattern : String} {books : Lookup} {c : Compiled}

theorem renderStored_found (htarget : target? lookupKey ctx = some (space, key)) (hbooks : ctx.lookup = some books)
    (hpattern : books.store.find? space key ctx.language = some pattern)
    (hc : books.dialect.compile pattern = .ok c) :
    renderStored deeper lookupKey arguments ctx = Run.within (.stored space key) (do
      Run.note (.compiled pattern)
      let text ← Run.asChild space (passAll ctx.layers .empty 0 arguments) (deeper.render c)
      return .unencoded text) ctx := by
  have hget : (get : Run Context) ctx = (.ok ctx, ctx) := rfl
  rw [renderStored, bind_apply, hget]
  dsimp only
  rw [htarget]
  dsimp only
  rw [hbooks]
  dsimp only
  rw [hpattern]
  dsimp only
  rw [hc]

/-- A lookup that finds its pattern renders it with the arguments alone, and comes back to where it was. -/
theorem renderStored_eq (htarget : target? lookupKey ctx = some (space, key)) (hbooks : ctx.lookup = some books)
    (hpattern : books.store.find? space key ctx.language = some pattern)
    (hc : books.dialect.compile pattern = .ok c) (hlength : ctx.calls.length < ctx.maxDepth)
    (hname : ∀ call ∈ ctx.calls, call.name ≠ (Call.stored space key).name) :
    renderStored deeper lookupKey arguments ctx =
      let outcome := deeper.render c (ctx.called space key pattern (passAll ctx.layers .empty 0 arguments))
      (outcome.1.map .unencoded, { ctx with journal := outcome.2.journal }) := by
  have hnote {α : Type} (event : Event) (act : Run α) (ctx : Context) :
      (do Run.note event; act) ctx = act { ctx with journal := event :: ctx.journal } := rfl
  rw [renderStored_found htarget hbooks hpattern hc, Run.within_ok hlength hname]
  dsimp only
  rw [hnote, Run.asChild_map]
  dsimp only
  rw [List.dropLast_concat]
  rfl

/-- Arguments arrive by position: where a pattern is called, each that is not skipped is found there under its
index, with the format that it was given, unless one after it is a parameter with that index for its name. -/
theorem lookup_passes_positions (htarget : target? lookupKey ctx = some (space, key))
    (hbooks : ctx.lookup = some books) (hpattern : books.store.find? space key ctx.language = some pattern)
    (hc : books.dialect.compile pattern = .ok c) (hlength : ctx.calls.length < ctx.maxDepth)
    (hname : ∀ call ∈ ctx.calls, call.name ≠ (Call.stored space key).name) :
    (lookup lookupKey arguments).evaluate deeper ctx =
        (let outcome := deeper.render c (ctx.called space key pattern (passAll ctx.layers .empty 0 arguments))
         (outcome.1.map .unencoded, { ctx with journal := outcome.2.journal })) ∧
      ∀ (i : Nat) (a : LookupArgument) (p : Parameter), arguments[i]? = some a → a.passed? ctx.layers = some p →
        (∀ (j : Nat) (b : LookupArgument), i < j → arguments[j]? = some b →
          ∀ name ∈ b.name?, Text.lowered name ≠ toString i) →
        (passAll ctx.layers .empty 0 arguments).get? (toString i) = some p := by
  refine ⟨renderStored_eq htarget hbooks hpattern hc hlength hname, fun i a p ha hp hlater => ?_⟩
  have hfound : (passAll ctx.layers .empty 0 arguments).get? (toString (0 + i)) = some p :=
    get?_passAll ha hp (by rwa [Nat.zero_add])
  rwa [Nat.zero_add] at hfound

end

end Evaluator

namespace Engine

def shared : Engine where
  store := Store.empty.insert "" "k" "" "{0}{1}"

/-- A caller that was itself called by position. -/
def numbered : Context :=
  shared.context ((ParameterSet.empty.set "0" (.plain (.text "a"))).set "1" (.plain (.text "b")))

def mixed : List LookupArgument :=
  [.literal "x", .skipped, .parameter "1" (some .roman)]

theorem numbered_passes :
    ∃ c, Dialect.standard.compile "{0}{1}" = .ok c ∧
      (Evaluator.lookup (.fixed "k") mixed).evaluate (.level 1) numbered =
        (let outcome := (Deeper.level 1).render c
            (numbered.called "" "k" "{0}{1}" (Evaluator.passAll numbered.layers .empty 0 mixed))
         (outcome.1.map .unencoded, { numbered with journal := outcome.2.journal })) ∧
      (Evaluator.passAll numbered.layers .empty 0 mixed).get? "0" = some (.plain (.text "x")) ∧
      (Evaluator.passAll numbered.layers .empty 0 mixed).get? "2" =
        some ((Parameter.plain (.text "b")).withDefaultFormat .roman) := by
  have hcompile : (Dialect.standard.compile "{0}{1}").toOption.isSome = true := by decide +kernel
  obtain ⟨c, hc⟩ := isSome_toOption_iff.mp hcompile
  have hpattern : shared.lookup.store.find? "" "k" numbered.language = some "{0}{1}" := by decide +kernel
  have htarget : Evaluator.target? (.fixed "k") numbered = some ("", "k") := by decide +kernel
  have hget : numbered.layers.get? "1" = some (.plain (.text "b")) := by
    change Layers.get? [(ParameterSet.empty.set "0" _).set "1" _] "1" = _
    rw [Layers.get?_cons, ParameterSet.get?_set, if_pos rfl]
    rfl
  have hpassed : LookupArgument.passed? numbered.layers (.parameter "1" (some .roman)) =
      some ((Parameter.plain (.text "b")).withDefaultFormat .roman) := by
    rw [LookupArgument.passed?, hget, Option.getD_some]
  have hnames : ∀ b ∈ mixed, ∀ name ∈ b.name?, Text.lowered name = "1" := by
    have hone : Text.lowered "1" = "1" := Text.lowered_toString 1
    simp [mixed, LookupArgument.name?, hone]
  obtain ⟨hevaluate, hpositions⟩ := @Evaluator.lookup_passes_positions (.level 1) numbered (.fixed "k") mixed "" "k"
    "{0}{1}" shared.lookup c htarget rfl hpattern hc (by decide) (by rintro call ⟨⟩)
  refine ⟨c, hc, hevaluate, hpositions 0 _ _ rfl rfl ?_, hpositions 2 _ _ rfl hpassed ?_⟩
  · intro j b _ hb name hname
    rw [hnames b (List.mem_of_getElem? hb) name hname]
    decide
  · intro j b _ hb name hname
    rw [hnames b (List.mem_of_getElem? hb) name hname]
    decide

/-- The first argument is gone: the pattern is given the second one for both. -/
theorem numbered_overwrites :
    ∃ c, Dialect.standard.compile "{@k(1,0)}" = .ok c ∧ (c.evaluate numbered).1 = .ok "aa" := by
  have hevaluate : (Dialect.standard.compile "{@k(1,0)}").toOption.any (fun c =>
      (c.evaluate numbered).1 = .ok "aa") = true := by decide +kernel
  obtain ⟨c, hc, hresult⟩ := any_toOption_iff.mp hevaluate
  exact ⟨c, hc, of_decide_eq_true hresult⟩

end Engine

end Phrasebook
