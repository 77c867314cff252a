import Phrasebook.Proofs.Evaluation.Restored
import Phrasebook.Proofs.Value.Parameters

namespace Phrasebook

def Evaluator.constant (p : Parameter) : Evaluator :=
  .host ⟨"ConstantEvaluator", fun _ => .ok p⟩

/-- A name of the current element, or of its place, gives way to what it stands for. -/
def Evaluator.pinned (element place : Parameter) : Evaluator → Evaluator
  | .direct name =>
    if Text.lowered name = Text.lowered "#" then constant element
    else if Text.lowered name = Text.lowered "#Index" then constant place
    else .direct name
  | e => e

mutual

def BoundPart.pinned (element place : Parameter) : BoundPart → BoundPart
  | .parameter ref evaluator formatter => .parameter ref (evaluator.pinned element place) formatter
  | .group name evaluator expander body => .group name evaluator expander (BoundPart.pinnedBody element place body)
  | q => q

def BoundPart.pinnedParts (element place : Parameter) : List BoundPart → List BoundPart
  | [] => []
  | q :: rest => q.pinned element place :: BoundPart.pinnedParts element place rest

def BoundPart.pinnedBody (element place : Parameter) : Option (List BoundPart) → Option (List BoundPart)
  | none => none
  | some parts => some (BoundPart.pinnedParts element place parts)

end

def BoundCase.pinned (element place : Parameter) (c : BoundCase) : BoundCase :=
  { c with body := BoundPart.pinnedParts element place c.body }

/-- What a scope for an element shows as `#`. A null element does not hide what has that name outside. -/
def Layers.current (outer : Layers) (element : Parameter) : Parameter :=
  if element.isNull then (outer.get? "#").getD (.plain .null) else element

def elementScope (element place : Parameter) : ParameterSet :=
  (ParameterSet.empty.set "#" element).set "#Index" place

namespace Layers

variable {outer : Layers} {element place : Parameter} {name : String}

theorem get?_element (hname : Text.lowered name = Text.lowered "#") :
    (get? (elementScope element place :: outer) name).getD (.plain .null) = outer.current element := by
  have hapart : Text.lowered "#" ≠ Text.lowered "#Index" := by decide +kernel
  rw [get?_cons, elementScope, ParameterSet.get?_set, hname, if_neg hapart, ParameterSet.get?_set, if_pos hname,
    get?_congr_name hname, current, Option.filter_some]
  cases element.isNull <;> rfl

theorem get?_place (hplace : place.isNull = false) (hname : Text.lowered name = Text.lowered "#Index") :
    get? (elementScope element place :: outer) name = some place := by
  rw [get?_cons, elementScope, ParameterSet.get?_set, if_pos hname, Option.filter_some, hplace]
  rfl

end Layers

def Context.atElement (ctx : Context) (element place : Parameter) : Context :=
  { ctx with layers := elementScope element place :: ctx.layers }

open Run

section

variable {deeper : Deeper} {start : Context} {element place : Parameter}

theorem Evaluator.evaluate_direct (name : String) (ctx : Context) :
    (direct name).evaluate deeper ctx = (.ok ((ctx.layers.get? name).getD (.plain .null)), ctx) :=
  rfl

theorem Evaluator.evaluate_pinned (hplace : place.isNull = false) {ctx : Context}
    (hctx : (start.atElement element place).Inside 0 ctx) (e : Evaluator) :
    (e.pinned (start.layers.current element) place).evaluate deeper ctx = e.evaluate deeper ctx := by
  obtain ⟨journal, rfl⟩ := hctx.eq
  cases e with
  | direct name =>
      rw [pinned]
      split_ifs with hname hname
      · rw [constant, evaluate_host, evaluate_direct]
        dsimp only [Context.atElement]
        rw [Layers.get?_element hname]
      · rw [constant, evaluate_host, evaluate_direct]
        dsimp only [Context.atElement]
        rw [Layers.get?_place hplace hname, Option.getD_some]
      · rfl
  | _ => rfl

namespace Deeper.TestsRestored

variable (h : deeper.TestsRestored) (hplace : place.isNull = false)

include h hplace

/-- Where a case names the current element it writes that of its own scope, at whatever depth of groups. -/
theorem parts_pinned {e : BoundExpression} (he : e.LeavesScene) {ctx : Context}
    (hctx : (start.atElement element place).Inside 0 ctx) :
    Render.parts deeper (BoundPart.pinnedParts (start.layers.current element) place e) ctx =
      Render.parts deeper e ctx := by
  induction e using BoundExpression.induction generalizing ctx with
  | step e ih =>
      have hpart : ∀ q ∈ e, ∀ ctx, (start.atElement element place).Inside 0 ctx →
          Render.part deeper (q.pinned (start.layers.current element) place) ctx = Render.part deeper q ctx := by
        intro q hq ctx hctx
        cases q with
        | parameter ref evaluator formatter =>
            rw [BoundPart.pinned, Render.part, Render.part]
            exact bind_congr (evaluator.evaluate_pinned hplace hctx) fun _ => rfl
        | group name evaluator expander content =>
            have hafter := (Context.Inside.ensures_evaluate deeper evaluator ctx hctx).2.1
            rw [BoundPart.pinned, Render.part, Render.part]
            refine bind_congr rfl fun p => bind_congr ?_ fun _ => rfl
            cases content with
            | none => rfl
            | some b =>
                exact ih _ hq b List.mem_cons_self
                  (fun node part hpart => he node part (.inside hq List.mem_cons_self hpart)) hafter
        | text | switch | custom => rfl
      have hensures := fun q (hq : q ∈ e) => h.ensures_part he hq (start.atElement element place) 0
      clear ih he
      induction e generalizing ctx with
      | nil => rfl
      | cons q e ih =>
          rw [List.forall_mem_cons] at hpart hensures
          have hafter := (hensures.1 ctx hctx).2.1
          rw [BoundPart.pinnedParts, Render.parts, Render.parts]
          exact bind_congr (hpart.1 ctx hctx) fun text => bind_congr (ih hafter hpart.2 hensures.2) fun _ => rfl

theorem firstCase_pinned {cases : List BoundCase} (hcases : ∀ c ∈ cases, BoundExpression.LeavesScene c.body)
    {passes : Condition → Run Bool}
    (hpasses : ∀ c, Ensures ((start.atElement element place).Inside 0) (fun _ => True) (passes c)) {ctx : Context}
    (hctx : (start.atElement element place).Inside 0 ctx) :
    Render.firstCase deeper passes (cases.map (·.pinned (start.layers.current element) place)) ctx =
      Render.firstCase deeper passes cases ctx := by
  induction cases generalizing ctx with
  | nil => rfl
  | cons c rest ih =>
      rw [List.forall_mem_cons] at hcases
      obtain ⟨isOpen, spelling, condition, body⟩ := c
      have hafter := (hpasses condition ctx hctx).2.1
      rw [List.map_cons, BoundCase.pinned, Render.firstCase, Render.firstCase]
      refine bind_congr rfl fun passed => ?_
      cases passed with
      | true => exact h.parts_pinned hplace hcases.1 hafter
      | false => exact ih hcases.2 hafter

end Deeper.TestsRestored

namespace Render

theorem inScope_element (element place : Parameter) (act : Run String) (ctx : Context) :
    Run.inScope (do
        let p := current none element (← get)
        Run.setTop "#" p
        Run.setTop "#Index" place
        act) ctx =
      ((act (ctx.atElement element place)).1,
        { (act (ctx.atElement element place)).2 with layers := (act (ctx.atElement element place)).2.layers.pop }) :=
  rfl

theorem eachElement_congr {list : Parameter} {length i : Nat} {items : List Parameter} {act act' : Nat → Run String}
    (hact : ∀ j item, items[j]? = some item → ∀ ctx,
      (start.atElement (list.element item) (index ((i + j : Nat) + 1))).Inside 0 ctx →
        act (i + j) ctx = act' (i + j) ctx)
    (hensures : ∀ i element place, Ensures ((start.atElement element place).Inside 0) (fun _ => True) (act' i))
    {ctx : Context} (hctx : start.Inside 0 ctx) :
    eachElement list none length act i items ctx = eachElement list none length act' i items ctx := by
  induction items generalizing i ctx with
  | nil => rfl
  | cons item rest ih =>
      have hinner : (start.atElement (list.element item) (index (i + 1))).Inside 0
          (ctx.atElement (list.element item) (index (i + 1))) := by
        obtain ⟨journal, rfl⟩ := hctx.eq
        exact ⟨[], journal, rfl, rfl⟩
      have hsame : act i (ctx.atElement (list.element item) (index (i + 1))) =
          act' i (ctx.atElement (list.element item) (index (i + 1))) := hact 0 item rfl _ hinner
      obtain ⟨journal, hafter⟩ := (hensures i _ _ _ hinner).2.1.eq
      rw [eachElement, eachElement]
      refine bind_congr ?_ fun text => bind_congr (ih ?_ ?_) fun _ => rfl
      · rw [inScope_element, inScope_element, hsame]
      · intro j item hitem ctx hctx
        rw [Nat.add_right_comm] at hctx ⊢
        exact hact (j + 1) item hitem ctx hctx
      · rw [inScope_element]
        dsimp only
        rw [hafter]
        exact ⟨[], journal, rfl, rfl⟩

end Render

namespace Deeper.TestsRestored

variable (h : deeper.TestsRestored)

include h

theorem ensures_testElement (start : Context) (c : Condition) (i length : Nat) :
    Ensures (start.Inside 0) (fun _ => True) (Render.testElement deeper c i length) :=
  agree_iff_related.mpr (Render.related_testElement (Context.Inside.simulation start)
    (fun p _ => agree_iff_related.mp (h.ensures_test start 0 c p)) i length)

theorem ensures_firstCase {cases : List BoundCase} (hcases : ∀ c ∈ cases, BoundExpression.LeavesScene c.body)
    (start : Context) (i length : Nat) :
    Ensures (start.Inside 0) (fun _ => True)
      (Render.firstCase deeper (Render.testElement deeper · i length) cases) := by
  refine agree_iff_related.mpr (Render.related_firstCase (Context.Inside.simulation start) (C := fun _ => True)
    (List.forall₂_same.mpr fun c hc => ⟨trivial, rfl, ?_⟩) ⟨rfl, fun c _ => ?_⟩)
  · exact agree_iff_related.mp (h.ensures_parts (hcases c hc) start 0)
  · exact agree_iff_related.mp (h.ensures_testElement start c i length)

end Deeper.TestsRestored

end

/-- In the case for an element of a list its name and that of its place write that element and its place, as
parameters that are bound to them would. What is seen of a null element is what has its name outside. -/
theorem Compiled.part_switch_list {d : Dialect} (hd : d.LeavesScene) {pattern : String} {c : Compiled}
    (hc : d.compile pattern = .ok c) {subject : Reference} {evaluator : Evaluator} {template : Option String}
    {cases : List BoundCase} {nullCase : Option BoundExpression}
    (hswitch : c.bound.Contains (.switch subject evaluator none template cases nullCase)) {depth : Nat}
    {ctx after : Context} {list : Parameter} (hlist : evaluator.evaluate (.level depth) ctx = (.ok list, after))
    {items : List Parameter} (hitems : list.value = .list items) :
    Render.part (.level depth) (.switch subject evaluator none template cases nullCase) ctx =
      Render.eachElement list none items.length
        (fun i => Render.firstCase (.level depth) (Render.testElement (.level depth) · i items.length)
          (cases.map (·.pinned (ctx.layers.current (list.element (items.getD i (.plain .null))))
            (Render.index (i + 1)))))
        0 items after := by
  have hrestored := Deeper.testsRestored_level depth
  have hcases : ∀ c ∈ cases, BoundExpression.LeavesScene c.body := by
    intro case hcase node part hpart
    exact hd.compile hc node part (hswitch.body (List.mem_append_left _ (List.mem_map_of_mem hcase)) hpart)
  have hafter := (Context.Inside.ensures_evaluate (.level depth) evaluator ctx (.refl ctx)).2.1
  rw [hlist] at hafter
  rw [Render.part, bind_apply, hlist]
  dsimp only
  rw [hitems]
  dsimp only
  refine (Render.eachElement_congr (fun j item hitem ctx' hctx' => ?_)
    (fun i element place => hrestored.ensures_firstCase hcases _ i _) hafter).symm
  rw [Nat.zero_add] at hctx' ⊢
  rw [List.getD_eq_getElem?_getD, hitem]
  exact hrestored.firstCase_pinned rfl hcases (fun c => hrestored.ensures_testElement _ c j _) hctx'

def BoundExpression.switchesOn (name : String) : BoundExpression → Bool
  | [.switch _ (.direct subject) none _ _ _] => subject = name
  | _ => false

theorem BoundExpression.exists_of_switchesOn {name : String} {e : BoundExpression} (h : e.switchesOn name = true) :
    ∃ subject template cases nullCase, e = [.switch subject (.direct name) none template cases nullCase] := by
  unfold switchesOn at h
  split at h
  next subject _ template cases nullCase =>
    obtain rfl := of_decide_eq_true h
    exact ⟨subject, template, cases, nullCase, rfl⟩
  next => cases h

namespace Engine

def places : List Parameter :=
  [.plain (.integer 1), .plain .null]

/-- A caller whose own parameter has the name of the current element. -/
def namesake : Context :=
  ({} : Engine).context ((((ParameterSet.empty.set "#" (.plain (.text "x"))).set "L" (.plain (.list places))).set "M"
    (.plain (.list [.plain .null]))).set "Z" (.plain .null))

theorem namesake_part :
    ∃ c subject template cases nullCase, Dialect.standard.compile "#L\x7b\x7b#\x7d\x7d" = .ok c ∧
      c.bound = [.switch subject (.direct "L") none template cases nullCase] ∧
      Render.part (.level 64) (.switch subject (.direct "L") none template cases nullCase) namesake =
        Render.eachElement (.plain (.list places)) none 2
          (fun i => Render.firstCase (.level 64) (Render.testElement (.level 64) · i 2)
            (cases.map (·.pinned (namesake.layers.current ((Parameter.plain (.list places)).element
              (places.getD i (.plain .null)))) (Render.index (i + 1)))))
          0 places namesake := by
  have hcompile : (Dialect.standard.compile "#L\x7b\x7b#\x7d\x7d").toOption.any (fun c =>
      c.bound.switchesOn "L") = true := by decide +kernel
  obtain ⟨c, hc, hswitch⟩ := any_toOption_iff.mp hcompile
  obtain ⟨subject, template, cases, nullCase, hbound⟩ := BoundExpression.exists_of_switchesOn hswitch
  refine ⟨c, subject, template, cases, nullCase, hc, hbound, ?_⟩
  have hmem : c.bound.Contains (.switch subject (.direct "L") none template cases nullCase) :=
    .here (hbound ▸ List.mem_singleton_self _)
  have hget : namesake.layers.get? "L" = some (.plain (.list places)) := rfl
  have hlist : (Evaluator.direct "L").evaluate (.level 64) namesake = (.ok (.plain (.list places)), namesake) := by
    rw [Evaluator.evaluate_direct, hget, Option.getD_some]
  exact Compiled.part_switch_list Dialect.standard_leavesScene hc hmem hlist rfl

/-- What is written for the element that is null is the caller's parameter, where one bound to null writes
nothing. -/
theorem namesake_null :
    ∃ c c', Dialect.standard.compile "#M\x7b\x7b#\x7d\x7d" = .ok c ∧
      Dialect.standard.compile "#M\x7b\x7bZ\x7d\x7d" = .ok c' ∧
      (c.evaluate namesake).1 = .ok "x" ∧ (c'.evaluate namesake).1 = .ok "" := by
  have hnamed : (Dialect.standard.compile "#M\x7b\x7b#\x7d\x7d").toOption.any (fun c =>
      (c.evaluate namesake).1 = .ok "x") = true := by decide +kernel
  have hbound : (Dialect.standard.compile "#M\x7b\x7bZ\x7d\x7d").toOption.any (fun c =>
      (c.evaluate namesake).1 = .ok "") = true := by decide +kernel
  obtain ⟨c, hc, hresult⟩ := any_toOption_iff.mp hnamed
  obtain ⟨c', hc', hresult'⟩ := any_toOption_iff.mp hbound
  exact ⟨c, c', hc, hc', of_decide_eq_true hresult, of_decide_eq_true hresult'⟩

end Engine

end Phrasebook
