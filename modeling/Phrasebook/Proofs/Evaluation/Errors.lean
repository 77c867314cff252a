import Phrasebook.Proofs.Dialect.Hosts
import Phrasebook.Proofs.Evaluation.Lookups

namespace Phrasebook

section

variable (P : EvalError → Prop) (L : Language → Prop)

def Evaluator.FailsIn (evaluator : Evaluator) : Prop :=
  ∀ host, evaluator = .host host → ∀ scene e, host.evaluate scene = .error e → P e

def Condition.FailsIn : Condition → Prop
  | .connective left _ right => left.FailsIn ∧ right.FailsIn
  | .host condition => ∀ p scene e, condition.test p scene = .error e → P e
  | _ => True

/-- A part of a host that comes to languages in `L` alone, and fails with errors in `P` alone. -/
def CustomPart.FailsIn (part : CustomPart) : Prop :=
  ∀ scene, L scene.language →
    L (part.render scene).2.language ∧ ∀ e, (part.render scene).1 = .error e → P e

abbrev BoundPart.FailsIn (q : BoundPart) : Prop :=
  q.BoundTo (Evaluator.FailsIn P) (Condition.FailsIn P) (CustomPart.FailsIn P L)

abbrev Dialect.FailsIn (d : Dialect) : Prop :=
  d.HostsEnsure (Evaluator.FailsIn P) (Condition.FailsIn P) (CustomPart.FailsIn P L)

def Compiled.FailsIn (c : Compiled) : Prop :=
  ∀ q, c.bound.Contains q → q.FailsIn P L

/-- All errors of a run that do not come from a host are in `P`, in whichever of the languages `L` it looks up what
is stored. -/
structure Admits (lookup : Option Lookup) : Prop where
  plain : ∀ e, e.IsPlain → P e
  cyclic : ∀ chain, P (.cyclicReference chain)
  unresolved : ∀ language, L language → ∀ space key suggested, Lacks lookup language space key suggested →
    P (.unresolvedLookup space key suggested)
  unreadable : ∀ language, L language → ∀ books ∈ lookup, ∀ space key,
    ∀ text ∈ books.store.find? space key language, ∀ e, books.dialect.Unreadable text e → P e

structure Consults (lookup : Option Lookup) (ctx : Context) : Prop where
  lookup_eq : ctx.lookup = lookup
  language : L ctx.language

def Failures.among : Failures := { related := fun _ e _ => P e }

end

theorem BuiltInsEnsure.failsIn {P : EvalError → Prop} :
    BuiltInsEnsure (Evaluator.FailsIn P) (Condition.FailsIn P) where
  evaluator _ he host hhost := (he host hhost).elim
  condition c hc := by
    induction c with
    | connective left connective right ihl ihr => exact ⟨ihl hc.1, ihr hc.2⟩
    | host => exact hc.elim
    | _ => trivial
  connective _ _ _ hleft hright := ⟨hleft, hright⟩

theorem Condition.FailsIn.imp {P Q : EvalError → Prop} (hPQ : ∀ e, P e → Q e) {c : Condition} (h : c.FailsIn P) :
    c.FailsIn Q := by
  induction c with
  | connective left connective right ihl ihr => exact ⟨ihl h.1, ihr h.2⟩
  | host condition => exact fun p scene e he => hPQ e (h p scene e he)
  | _ => trivial

theorem Dialect.FailsIn.imp {P Q : EvalError → Prop} {L : Language → Prop} {d : Dialect} (h : d.FailsIn P L)
    (hPQ : ∀ e, P e → Q e) : d.FailsIn Q L :=
  HostsEnsure.imp h (fun _ he host hhost scene e herror => hPQ e (he host hhost scene e herror))
    (fun _ hc => hc.imp hPQ) fun _ hpart scene hscene =>
      ⟨(hpart scene hscene).1, fun e he => hPQ e ((hpart scene hscene).2 e he)⟩

theorem RelatedResult.among {P : EvalError → Prop} {α : Type} {x : Except EvalError α}
    (h : ∀ e, x = .error e → P e) : RelatedResult (fun e _ => P e) (Diagonal fun _ => True) x x := by
  cases x with
  | ok a => exact .ok ⟨rfl, trivial⟩
  | error e => exact .error (h e rfl)

open Run

section

variable {P : EvalError → Prop} {L : Language → Prop} {lookup : Option Lookup} {deeper : Deeper}

namespace Consults

theorem invariant : Render.Invariant (Consults L lookup) (fun _ => True) fun _ => True where
  push _ h := ⟨h.lookup_eq, h.language⟩
  pop _ h := ⟨h.lookup_eq, h.language⟩
  set _ _ _ h _ := ⟨h.lookup_eq, h.language⟩
  empty := trivial
  append _ _ _ _ := trivial
  literal _ _ _ := trivial
  index _ := trivial
  element _ _ _ _ _ _ := trivial

theorem passage : Passage (Consults L lookup) fun _ => Consults L lookup where
  enter _ _ h _ _ := ⟨h.lookup_eq, h.language⟩
  leave _ _ h := ⟨h.lookup_eq, h.language⟩
  note _ _ _ h := ⟨h.lookup_eq, h.language⟩

theorem crossing (hP : Admits P L lookup) :
    Crossing (Diagonal (Consults L lookup)) (fun _ => Diagonal (Consults L lookup)) (.among P) where
  same := passage.crossing.same
  full := passage.crossing.full
  error _ e he := hP.plain e he
  unresolved := by
    rintro ctx _ space key suggested ⟨-, hctx⟩ hlacks -
    rw [hctx.lookup_eq] at hlacks
    exact hP.unresolved ctx.language hctx.language space key suggested hlacks
  unreadable := by
    rintro ctx _ ⟨-, hctx⟩ books hbooks space key text htext e he -
    rw [hctx.lookup_eq] at hbooks
    exact hP.unreadable ctx.language hctx.language books hbooks space key text htext e he
  cyclic ctx _ call _ _ _ := hP.cyclic (ctx.calls ++ [call])
  enter := passage.crossing.enter
  leave := passage.crossing.leave
  note := passage.crossing.note

end Consults

/-- From every context that looks up what is stored as it should a run comes to one, and fails in `P`. -/
def FailsIn (P : EvalError → Prop) (L : Language → Prop) (lookup : Option Lookup) {α : Type} (m : Run α) : Prop :=
  Related (Diagonal (Consults L lookup)) (.among P) (Diagonal fun _ => True) m m

structure Deeper.FailsIn (P : EvalError → Prop) (L : Language → Prop) (lookup : Option Lookup)
    (deeper : Deeper) : Prop where
  render : ∀ c : Compiled, c.FailsIn P L → Phrasebook.FailsIn P L lookup (deeper.render c)
  test : ∀ (c : Condition) (p : Parameter), c.FailsIn P → Phrasebook.FailsIn P L lookup (deeper.test c p)

theorem Condition.FailsIn.relatedHosts {c : Condition} (h : c.FailsIn P) :
    c.RelatedHosts (Diagonal (Consults L lookup)) (.among P) := by
  induction c with
  | connective left connective right ihl ihr => exact ⟨ihl h.1, ihr h.2⟩
  | host condition =>
      rintro p ctx _ ⟨rfl, -⟩
      exact .among (h p ctx.toScene)
  | _ => trivial

theorem CustomPart.FailsIn.onScene {part : CustomPart} (h : part.FailsIn P L) :
    Phrasebook.FailsIn P L lookup (Run.onScene part.render) := by
  rintro ctx _ ⟨rfl, hctx⟩
  obtain ⟨hlanguage, hfails⟩ := h ctx.toScene hctx.language
  exact .inr ⟨⟨rfl, hctx.lookup_eq, hlanguage⟩, .among hfails⟩

namespace Deeper.FailsIn

variable (h : deeper.FailsIn P L lookup) (hP : Admits P L lookup)
  (hlookup : ∀ books ∈ lookup, books.dialect.FailsIn P L)

include h hP hlookup

theorem test_condition {c : Condition} (hc : c.FailsIn P) (p : Parameter) :
    Phrasebook.FailsIn P L lookup (c.test deeper p) := by
  refine Condition.related_test (Consults.crossing hP) ?_ c hc.relatedHosts p
  rintro ctx _ ⟨-, hctx⟩ books hbooks call text c hc p
  rw [hctx.lookup_eq] at hbooks
  exact h.test c p ((hlookup books hbooks).condition .failsIn _ _ _ hc)

theorem evaluate {e : Evaluator} (he : e.FailsIn P) : Phrasebook.FailsIn P L lookup (e.evaluate deeper) := by
  refine Evaluator.related_evaluate (Consults.crossing hP) ⟨rfl, trivial⟩ (fun _ _ _ _ _ _ => ⟨rfl, trivial⟩)
    (fun _ _ _ _ _ => ⟨rfl, trivial⟩) (fun key arguments _ => ?_) ?_
  · refine Evaluator.related_renderStored (T := Diagonal fun _ => True) (Consults.crossing hP) ⟨rfl, trivial⟩
      (fun s s' hs => ⟨by rw [hs.1], trivial⟩) ?_
    rintro ctx _ ⟨-, hctx⟩ books hbooks space key pattern - c hc
    rw [hctx.lookup_eq] at hbooks
    refine (h.render c ((hlookup books hbooks).compile .failsIn hc)).asChild ?_ ?_
    · rintro ctx _ ⟨rfl, hctx⟩
      exact ⟨rfl, hctx.lookup_eq, hctx.language⟩
    · rintro ctx _ after _ ⟨rfl, hctx⟩ ⟨rfl, -⟩
      exact ⟨rfl, hctx.lookup_eq, hctx.language⟩
  · rintro host hhost ctx _ ⟨rfl, -⟩
    exact .among (he host hhost ctx.toScene)

theorem renderWith {c : Compiled} (hc : c.FailsIn P L) : Phrasebook.FailsIn P L lookup (c.renderWith deeper) := by
  refine Render.related_renderWith Consults.invariant.simulation 0 rfl rfl
    (Render.related_parts Consults.invariant.simulation (fun _ q hq => ?_) 1) (fun _ => ⟨?_, ?_⟩)
    fun t _ s s' hs => ⟨by rw [hs.1], trivial⟩
  · have hlocal := hc q hq
    cases q with
    | text s =>
        rintro ctx _ ⟨rfl, -⟩
        exact ⟨rfl, trivial⟩
    | parameter ref e f =>
        refine ⟨_, h.evaluate hP hlookup hlocal, ?_⟩
        rintro ctx _ p _ ⟨rfl, -⟩ ⟨rfl, -⟩
        exact ⟨rfl, trivial⟩
    | switch subject e f template cases nullCase =>
        refine ⟨h.evaluate hP hlookup hlocal.1, ?_,
          fun c hc p _ => h.test_condition hP hlookup (hlocal.2 c hc) p⟩
        rintro ctx _ p ⟨rfl, -⟩ -
        exact ⟨rfl, trivial⟩
    | group name e expander body =>
        exact ⟨h.evaluate hP hlookup hlocal, fun p s s' _ hs => ⟨by rw [hs.1], trivial⟩⟩
    | custom node part => exact CustomPart.FailsIn.onScene hlocal
  · rintro ctx _ ⟨rfl, hctx⟩
    exact ⟨rfl, hctx.lookup_eq, hctx.language⟩
  · rintro ctx _ after _ ⟨rfl, -⟩ ⟨rfl, hafter⟩
    exact ⟨rfl, hafter.lookup_eq, hafter.language⟩

end Deeper.FailsIn

theorem Deeper.failsIn_level (hP : Admits P L lookup) (hlookup : ∀ books ∈ lookup, books.dialect.FailsIn P L)
    (n : Nat) : (level n).FailsIn P L lookup := by
  induction n with
  | zero =>
      exact ⟨fun _ _ => (Consults.crossing hP).related_refuse,
        fun _ _ _ => (Consults.crossing hP).related_refuse⟩
  | succ n ih => exact ⟨fun _ hc => ih.renderWith hP hlookup hc, fun _ p hc => ih.test_condition hP hlookup hc p⟩

/-- What holds of the errors of hosts and of those that reading what is stored may end with holds of the error that a
run ends with. -/
theorem Compiled.error_of_evaluate {d : Dialect} (hd : d.FailsIn P L) {pattern : String} {c : Compiled}
    (hc : d.compile pattern = .ok c) {ctx : Context} (hP : Admits P L ctx.lookup)
    (hlookup : ∀ books ∈ ctx.lookup, books.dialect.FailsIn P L) (hlanguage : L ctx.language) {e : EvalError}
    (he : (c.evaluate ctx).1 = .error e) : P e := by
  obtain ⟨-, hresult⟩ := ((Deeper.failsIn_level hP hlookup ctx.remaining).renderWith hP hlookup
    (hd.compile .failsIn hc)).of_not_cut (fun _ => id) ⟨rfl, rfl, hlanguage⟩
  rw [← evaluate_apply, he] at hresult
  cases hresult with
  | error h => exact h

end

end Phrasebook
