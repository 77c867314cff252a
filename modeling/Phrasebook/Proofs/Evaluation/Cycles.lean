import Phrasebook.Proofs.Dialect.Hosts
import Phrasebook.Proofs.Evaluation.CallChain
import Phrasebook.Proofs.Store

namespace Phrasebook

def Evaluator.RaisesNoCycle : Evaluator → Prop
  | .host e => ∀ scene chain, e.evaluate scene ≠ .error (.cyclicReference chain)
  | _ => True

def Condition.RaisesNoCycle : Condition → Prop
  | .connective left _ right => left.RaisesNoCycle ∧ right.RaisesNoCycle
  | .host c => ∀ p scene chain, c.test p scene ≠ .error (.cyclicReference chain)
  | _ => True

def CustomPart.RaisesNoCycle (part : CustomPart) : Prop :=
  ∀ scene chain, (part.render scene).1 ≠ .error (.cyclicReference chain)

def BoundPart.RaisesNoCycle : BoundPart → Prop
  | .text _ => True
  | .parameter _ e _ => e.RaisesNoCycle
  | .switch _ e _ _ cases _ => e.RaisesNoCycle ∧ ∀ c ∈ cases, c.condition.RaisesNoCycle
  | .group _ e _ _ => e.RaisesNoCycle
  | .custom _ part => part.RaisesNoCycle ∧ part.LeavesChain

def Compiled.RaisesNoCycle (c : Compiled) : Prop :=
  ∀ q, c.bound.Contains q → q.RaisesNoCycle

structure Dialect.RaisesNoCycle (d : Dialect) : Prop where
  evaluators : ∀ accept, .host accept ∈ d.evaluators → ∀ ref, ∀ e ∈ accept ref, e.RaisesNoCycle
  conditions : ∀ accept, .host accept ∈ d.conditions → ∀ s, ∀ c ∈ accept s, c.RaisesNoCycle
  customParts : ∀ rule ∈ d.customParts, ∀ node, ∀ part ∈ rule node, part.RaisesNoCycle
  leavesChain : d.LeavesChain

theorem Condition.BuiltIn.raisesNoCycle {c : Condition} (h : c.BuiltIn) : c.RaisesNoCycle := by
  induction c with
  | connective left connective right ihl ihr => exact ⟨ihl h.1, ihr h.2⟩
  | host => exact h.elim
  | _ => trivial

theorem BuiltInsEnsure.raisesNoCycle : BuiltInsEnsure Evaluator.RaisesNoCycle Condition.RaisesNoCycle where
  evaluator e he := by
    cases e with
    | host e => exact (he e rfl).elim
    | _ => trivial
  condition _ hc := hc.raisesNoCycle
  connective _ _ _ hleft hright := ⟨hleft, hright⟩

namespace Dialect

variable {d : Dialect}

theorem standard_raisesNoCycle : standard.RaisesNoCycle where
  evaluators := (standard_hostsEnsure (C := fun _ => True) (P := fun _ => True)).evaluators
  conditions := (standard_hostsEnsure (E := fun _ => True) (P := fun _ => True)).conditions
  customParts := (standard_hostsEnsure (E := fun _ => True) (C := fun _ => True)).customParts
  leavesChain := standard_leavesChain

namespace RaisesNoCycle

theorem hostsEnsure (hd : d.RaisesNoCycle) :
    d.HostsEnsure Evaluator.RaisesNoCycle Condition.RaisesNoCycle
      fun part => part.RaisesNoCycle ∧ part.LeavesChain where
  evaluators := hd.evaluators
  conditions := hd.conditions
  customParts rule hrule node part hpart :=
    ⟨hd.customParts rule hrule node part hpart, hd.leavesChain rule hrule node part hpart⟩

theorem condition (hd : d.RaisesNoCycle) (site : Site) (text : String) (c : Condition)
    (h : d.condition site text = .ok c) : c.RaisesNoCycle :=
  HostsEnsure.condition .raisesNoCycle hd.hostsEnsure site text c h

theorem compile (hd : d.RaisesNoCycle) {pattern : String} {c : Compiled} (h : d.compile pattern = .ok c) :
    c.RaisesNoCycle := by
  intro q hq
  have hbound := HostsEnsure.compile .raisesNoCycle hd.hostsEnsure h q hq
  cases q <;> exact hbound

end RaisesNoCycle

end Dialect

def Call.IsStored (lookup : Option Lookup) (call : Call) : Prop :=
  ∃ books ∈ lookup, ∃ space key language,
    call = .stored space key ∧ (books.store.find? space key language).isSome

/-- Every beginning of a chain that began empty was entered at its time. -/
theorem ChainAfter.entered_of_prefix {maxDepth : Nat} {events : List Event} {calls : List Call}
    (h : ChainAfter maxDepth [] events calls) {chain : List Call} (hchain : chain <+: calls)
    (hne : chain ≠ []) : .entered chain ∈ events := by
  induction h with
  | start => exact absurd (List.prefix_nil.mp hchain) hne
  | compiled pattern _ ih => exact List.mem_cons_of_mem _ (ih hchain)
  | entered _ _ ih =>
      obtain rfl | hchain := List.prefix_concat_iff.mp hchain
      · exact List.mem_cons_self
      · exact List.mem_cons_of_mem _ (ih hchain)
  | left _ ih => exact ih (hchain.trans (List.prefix_append _ _))

open Run

/-- A chain in progress of what is stored, in a run that began without one. -/
structure OnPath (maxDepth : Nat) (lookup : Option Lookup) (old : List Event) (calls : List Call)
    (ctx : Context) : Prop extends Running maxDepth lookup old [] calls ctx where
  stored : ∀ c ∈ calls, c.IsStored lookup

/-- An error of a cycle tells the chain in progress and a call on top of it that has a name in common
with one on the chain. -/
def CycleSeen (maxDepth : Nat) (lookup : Option Lookup) (old journal : List Event) (e : EvalError) : Prop :=
  ∀ chain, e = .cyclicReference chain →
    ∃ events calls call, journal = events ++ old ∧ ChainAfter maxDepth [] events calls ∧
      chain = calls ++ [call] ∧ (∃ c ∈ calls, c.name = call.name) ∧ ∀ c ∈ chain, c.IsStored lookup

def Failures.seeingCycles (maxDepth : Nat) (lookup : Option Lookup) (old : List Event) : Failures :=
  { related := fun journal e _ => CycleSeen maxDepth lookup old journal e }

section

variable {maxDepth : Nat} {lookup : Option Lookup} {old : List Event} {calls : List Call}

theorem OnPath.invariant :
    Render.Invariant (OnPath maxDepth lookup old calls) (fun _ => True) fun _ => True where
  push _ h := ⟨Running.invariant.push _ h.toRunning, h.stored⟩
  pop _ h := ⟨Running.invariant.pop _ h.toRunning, h.stored⟩
  set _ name p h _ := ⟨Running.invariant.set _ name p h.toRunning trivial, h.stored⟩
  empty := trivial
  append _ _ _ _ := trivial
  literal _ _ _ := trivial
  index _ := trivial
  element _ _ _ _ _ _ := trivial

theorem Call.IsFound.isStored {call : Call}
    (h : call.IsFound (Diagonal (OnPath maxDepth lookup old calls))) : call.IsStored lookup := by
  obtain ⟨ctx, _, ⟨-, hctx⟩, books, hbooks, space, key, hcall, hfind⟩ := h
  exact ⟨books, hctx.lookup_eq ▸ hbooks, space, key, ctx.language, hcall, hfind⟩

theorem OnPath.crossing :
    Crossing (Diagonal (OnPath maxDepth lookup old calls))
      (fun call => Diagonal (OnPath maxDepth lookup old (calls ++ [call])))
      (.seeingCycles maxDepth lookup old) where
  same := by
    rintro ctx _ ⟨rfl, -⟩
    exact ⟨ctx.encoder, ctx.layers, ctx.maxDepth, rfl, le_rfl, fun _ => rfl⟩
  full := by
    rintro ctx _ ⟨rfl, -⟩
    exact .inr rfl
  error journal e he chain h := by
    subst h
    exact he.elim
  unresolved _ _ _ _ _ _ _ _ _ h := nomatch h
  unreadable := by
    rintro _ _ - _ - _ _ _ - e he _ chain rfl
    cases he
  cyclic := by
    rintro ctx _ call hcall ⟨rfl, hctx⟩ hname _ ⟨⟩
    obtain ⟨events, hjournal, hafter⟩ := hctx.journal
    rw [hctx.calls_eq] at hname ⊢
    exact ⟨events, calls, call, hjournal, hafter, rfl, hname,
      List.forall_mem_append.mpr ⟨hctx.stored, List.forall_mem_singleton.mpr hcall.isStored⟩⟩
  enter := by
    rintro ctx _ call hcall ⟨rfl, hctx⟩ hlength hname
    exact ⟨rfl, hctx.toRunning.enter hlength hname,
      List.forall_mem_append.mpr ⟨hctx.stored, List.forall_mem_singleton.mpr hcall.isStored⟩⟩
  leave := by
    rintro ctx _ call ⟨rfl, hctx⟩
    exact ⟨rfl, hctx.toRunning.leave, (List.forall_mem_append.mp hctx.stored).1⟩
  note := by
    rintro ctx _ call pattern ⟨rfl, hctx⟩
    exact ⟨rfl, hctx.toRunning.note, hctx.stored⟩

def KeepsPath (maxDepth : Nat) (lookup : Option Lookup) (old : List Event) (calls : List Call) {α : Type}
    (m : Run α) : Prop :=
  Related (Diagonal (OnPath maxDepth lookup old calls)) (.seeingCycles maxDepth lookup old)
    (Diagonal fun _ => True) m m

structure Deeper.KeepsPaths (maxDepth : Nat) (lookup : Option Lookup) (old : List Event) (deeper : Deeper) :
    Prop where
  render : ∀ calls (c : Compiled), c.RaisesNoCycle →
    KeepsPath maxDepth lookup old calls (deeper.render c)
  test : ∀ calls (c : Condition) (p : Parameter), c.RaisesNoCycle →
    KeepsPath maxDepth lookup old calls (deeper.test c p)

theorem Condition.RaisesNoCycle.relatedHosts {c : Condition} (hc : c.RaisesNoCycle) :
    c.RelatedHosts (Diagonal (OnPath maxDepth lookup old calls)) (.seeingCycles maxDepth lookup old) := by
  induction c with
  | connective left connective right ihl ihr => exact ⟨ihl hc.1, ihr hc.2⟩
  | host condition =>
      rintro p ctx _ ⟨rfl, -⟩
      cases htest : condition.test p ctx.toScene with
      | ok b => exact .ok ⟨rfl, trivial⟩
      | error e =>
          refine .error fun chain he => ?_
          subst he
          exact (hc p ctx.toScene chain htest).elim
  | _ => trivial

namespace Deeper.KeepsPaths

variable {deeper : Deeper} (h : deeper.KeepsPaths maxDepth lookup old)
  (hlookup : ∀ books ∈ lookup, books.dialect.RaisesNoCycle)

include h hlookup

theorem test_condition {c : Condition} (hc : c.RaisesNoCycle) (p : Parameter) :
    KeepsPath maxDepth lookup old calls (c.test deeper p) := by
  refine Condition.related_test OnPath.crossing ?_ c hc.relatedHosts p
  rintro ctx _ ⟨-, hctx⟩ books hbooks call text c hc p
  rw [hctx.lookup_eq] at hbooks
  exact h.test _ c p ((hlookup books hbooks).condition _ _ _ hc)

theorem evaluate {e : Evaluator} (he : e.RaisesNoCycle) :
    KeepsPath maxDepth lookup old calls (e.evaluate deeper) := by
  refine Evaluator.related_evaluate OnPath.crossing ⟨rfl, trivial⟩ (fun _ _ _ _ _ _ => ⟨rfl, trivial⟩)
    (fun _ _ _ _ _ => ⟨rfl, trivial⟩) (fun key arguments _ => ?_) fun host hkind => ?_
  · refine Evaluator.related_renderStored (T := Diagonal fun _ => True) OnPath.crossing ⟨rfl, trivial⟩
      (fun s s' hs => ⟨by rw [hs.1], trivial⟩) ?_
    rintro ctx _ ⟨-, hctx⟩ books hbooks space key pattern - c hc
    rw [hctx.lookup_eq] at hbooks
    refine (h.render (calls ++ [.stored space key]) c ((hlookup books hbooks).compile hc)).asChild ?_ ?_
    · rintro ctx _ ⟨rfl, h⟩
      exact ⟨rfl, ⟨h.1.1, h.1.2, h.1.3, h.1.4⟩, h.stored⟩
    · rintro ctx _ after _ ⟨rfl, h⟩ ⟨rfl, h'⟩
      exact ⟨rfl, ⟨h.1.1, h.1.2, h.1.3, h'.1.4⟩, h.stored⟩
  · subst hkind
    rintro ctx _ ⟨rfl, -⟩
    cases hevaluate : host.evaluate ctx.toScene with
    | ok p => exact .ok ⟨rfl, trivial⟩
    | error error =>
        refine .error fun chain herror => ?_
        subst herror
        exact (he ctx.toScene chain hevaluate).elim

theorem renderWith {c : Compiled} (hc : c.RaisesNoCycle) :
    KeepsPath maxDepth lookup old calls (c.renderWith deeper) := by
  refine Render.related_renderWith OnPath.invariant.simulation 0 rfl rfl
    (Render.related_parts OnPath.invariant.simulation (fun _ q hq => ?_) 1) (fun _ => ⟨?_, ?_⟩)
    fun t _ s s' hs => ⟨by rw [hs.1], trivial⟩
  · have hlocal := hc q hq
    cases q with
    | text s =>
        rintro ctx _ ⟨rfl, -⟩
        exact ⟨rfl, trivial⟩
    | parameter ref e f =>
        refine ⟨_, h.evaluate hlookup hlocal, ?_⟩
        rintro ctx _ p _ ⟨rfl, -⟩ ⟨rfl, -⟩
        exact ⟨rfl, trivial⟩
    | switch subject e f template cases nullCase =>
        refine ⟨h.evaluate hlookup hlocal.1, ?_, fun c hc p _ => h.test_condition hlookup (hlocal.2 c hc) p⟩
        rintro ctx _ p ⟨rfl, -⟩ -
        exact ⟨rfl, trivial⟩
    | group name e expander body =>
        exact ⟨h.evaluate hlookup hlocal, fun p s s' _ hs => ⟨by rw [hs.1], trivial⟩⟩
    | custom node part =>
        rintro ctx _ ⟨rfl, hctx⟩
        obtain ⟨hcalls, hdepth⟩ := hlocal.2 ctx.toScene
        refine .inr ⟨⟨rfl, ⟨hdepth.trans hctx.maxDepth_eq, hctx.lookup_eq, hcalls.trans hctx.calls_eq,
          hctx.journal⟩, hctx.stored⟩, ?_⟩
        change RelatedResult _ _ (part.render ctx.toScene).1 (part.render ctx.toScene).1
        cases hrender : (part.render ctx.toScene).1 with
        | ok s => exact .ok ⟨rfl, trivial⟩
        | error e =>
            refine .error fun chain he => ?_
            subst he
            exact (hlocal.1 ctx.toScene chain hrender).elim
  · rintro ctx _ ⟨rfl, h⟩
    exact ⟨rfl, ⟨h.1.1, h.1.2, h.1.3, h.1.4⟩, h.stored⟩
  · rintro ctx _ after _ ⟨rfl, -⟩ ⟨rfl, h⟩
    exact ⟨rfl, ⟨h.1.1, h.1.2, h.1.3, h.1.4⟩, h.stored⟩

end Deeper.KeepsPaths

theorem Deeper.keepsPaths_level (hlookup : ∀ books ∈ lookup, books.dialect.RaisesNoCycle) (n : Nat) :
    (Deeper.level n).KeepsPaths maxDepth lookup old := by
  induction n with
  | zero => exact ⟨fun _ _ _ => OnPath.crossing.related_refuse, fun _ _ _ _ => OnPath.crossing.related_refuse⟩
  | succ n ih =>
      exact ⟨fun _ _ hc => ih.renderWith hlookup hc, fun _ _ p hc => ih.test_condition hlookup hc p⟩

end

theorem Call.IsStored.eq_of_name_eq {lookup : Option Lookup} (hlookup : ∀ books ∈ lookup, books.store.NamesApart)
    {c call : Call} (hc : c.IsStored lookup) (hcall : call.IsStored lookup) (hname : c.name = call.name) :
    c = call := by
  obtain ⟨books, hbooks, space, key, language, rfl, hfind⟩ := hc
  obtain ⟨books', hbooks', space', key', language', rfl, hfind'⟩ := hcall
  obtain rfl : books = books' := Option.mem_unique hbooks hbooks'
  obtain ⟨pattern, hpattern⟩ := Option.isSome_iff_exists.mp hfind
  obtain ⟨pattern', hpattern'⟩ := Option.isSome_iff_exists.mp hfind'
  obtain ⟨tag, hentry⟩ := Store.exists_slot_of_find? hpattern
  obtain ⟨tag', hentry'⟩ := Store.exists_slot_of_find? hpattern'
  obtain ⟨hspace, hkey⟩ := hlookup books hbooks _ hentry _ hentry' hname
  dsimp only at hspace hkey
  rw [hspace, hkey]

/-- The error of a cycle, in a run that begins without lookups in progress, tells a chain of stored
patterns and conditions that were in progress when one more was asked for, which has the name of one of
them. If names tell namespaces and keys, that one is the same: it was entered while it was in progress. -/
theorem Compiled.cycle_of_evaluate {d : Dialect} (hd : d.RaisesNoCycle) {pattern : String} {c : Compiled}
    (hc : d.compile pattern = .ok c) {ctx : Context} (hcalls : ctx.calls = [])
    (hlookup : ∀ books ∈ ctx.lookup, books.dialect.RaisesNoCycle) {chain : List Call}
    (hchain : (c.evaluate ctx).1 = .error (.cyclicReference chain)) :
    ∃ events calls call, (c.evaluate ctx).2.journal = events ++ ctx.journal ∧
      ChainAfter ctx.maxDepth [] events calls ∧ .entered calls ∈ events ∧ chain = calls ++ [call] ∧
      (∃ c ∈ calls, c.name = call.name) ∧
      ((∀ books ∈ ctx.lookup, books.store.NamesApart) → call ∈ calls) := by
  have hctx : OnPath ctx.maxDepth ctx.lookup ctx.journal [] ctx :=
    ⟨⟨rfl, rfl, hcalls, [], rfl, .start (.nil _)⟩, nofun⟩
  obtain ⟨-, hresult⟩ := ((Deeper.keepsPaths_level hlookup ctx.remaining).renderWith hlookup
    (hd.compile hc)).of_not_cut (fun _ => id) ⟨rfl, hctx⟩
  rw [← evaluate_apply, hchain] at hresult
  cases hresult with
  | error hseen =>
      obtain ⟨events, calls, call, hjournal, hafter, rfl, ⟨c', hc', hname⟩, hstored⟩ := hseen chain rfl
      have hne : calls ≠ [] := List.ne_nil_of_mem hc'
      refine ⟨events, calls, call, hjournal, hafter, hafter.entered_of_prefix List.prefix_rfl hne, rfl,
        ⟨c', hc', hname⟩, fun hapart => ?_⟩
      -- the call on the chain and the refused one have one name, and both are of what is stored
      have hsame := (hstored c' (List.mem_append_left _ hc')).eq_of_name_eq hapart
        (hstored call (List.mem_append_right _ (List.mem_singleton_self call))) hname
      exact hsame ▸ hc'

namespace Engine

def paired : Engine where
  store := (Store.empty.insert "n" "a" "" "{@n__b}").insert "n" "b" "" "{@n__a}"

theorem paired_cycle :
    ∃ c chain, Dialect.standard.compile "{@n__a}" = .ok c ∧
      (c.evaluate (paired.context .empty)).1 = .error (.cyclicReference chain) ∧
      ∃ calls call, chain = calls ++ [call] ∧ call ∈ calls := by
  have hevaluate : (Dialect.standard.compile "{@n__a}").toOption.any (fun c =>
      (c.evaluate (paired.context .empty)).1 =
        .error (.cyclicReference [.stored "n" "a", .stored "n" "b", .stored "n" "a"])) = true := by
    decide +kernel
  have hlookup : ∀ books ∈ (paired.context .empty).lookup, books.dialect.RaisesNoCycle := by
    rintro books ⟨⟩
    exact Dialect.standard_raisesNoCycle
  have hapart : ∀ books ∈ (paired.context .empty).lookup, books.store.NamesApart := by
    rintro books ⟨⟩
    exact Store.namesApart_of_no_slash (by decide +kernel)
  obtain ⟨c, hc, hcycle⟩ := any_toOption_iff.mp hevaluate
  have hchain := of_decide_eq_true hcycle
  obtain ⟨-, calls, call, -, -, -, heq, -, hmem⟩ :=
    c.cycle_of_evaluate Dialect.standard_raisesNoCycle hc rfl hlookup hchain
  exact ⟨c, _, hc, hchain, calls, call, heq, hmem hapart⟩

/-- Two different keys that make one name: the namespace `a` has a key with a slash, and the namespace
with that slash has the rest of the key. -/
def slashed : Engine where
  store := (Store.empty.insert "a" "b/c" "" "{@a/b__c}").insert "a/b" "c" "" "x"

/-- The one pattern leads to the other, which leads nowhere, and yet that is refused as a cycle: no key of a
namespace is entered or asked for twice. -/
theorem slashed_cycle :
    ∃ c calls call, Dialect.standard.compile "{@a__b/c}" = .ok c ∧
      (c.evaluate (slashed.context .empty)).1 = .error (.cyclicReference (calls ++ [call])) ∧
      (calls ++ [call]).Nodup ∧
      ∀ chain, .entered chain ∈ (c.evaluate (slashed.context .empty)).2.journal → (chain ++ [call]).Nodup := by
  have hevaluate : (Dialect.standard.compile "{@a__b/c}").toOption.any (fun c =>
      (c.evaluate (slashed.context .empty)).1 =
          .error (.cyclicReference [.stored "a" "b/c", .stored "a/b" "c"]) ∧
        (c.evaluate (slashed.context .empty)).2.journal =
          [.compiled "{@a/b__c}", .entered [.stored "a" "b/c"]]) = true := by
    decide +kernel
  obtain ⟨c, hc, hcycle⟩ := any_toOption_iff.mp hevaluate
  obtain ⟨hchain, hjournal⟩ := of_decide_eq_true hcycle
  refine ⟨c, [.stored "a" "b/c"], .stored "a/b" "c", hc, hchain, by decide, fun chain hmem => ?_⟩
  rw [hjournal] at hmem
  have hentered : chain = [.stored "a" "b/c"] := by simpa using hmem
  rw [hentered]
  decide

end Engine

end Phrasebook
