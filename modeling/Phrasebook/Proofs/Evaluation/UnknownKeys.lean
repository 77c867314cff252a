import Phrasebook.Engine
import Phrasebook.Proofs.Evaluation.Errors
import Phrasebook.Proofs.Store
import Phrasebook.Proofs.Text.EditDistance
import Phrasebook.Proofs.Text.Suggestions

namespace Phrasebook

abbrev Dialect.HostFree (d : Dialect) : Prop :=
  d.HostsEnsure (fun e => ∀ host, e ≠ .host host) Condition.BuiltIn fun _ => False

def EvalError.TellsTrue (lookup : Option Lookup) (language : Language) (e : EvalError) : Prop :=
  ∀ space key suggested, e = .unresolvedLookup space key suggested → Lacks lookup language space key suggested

section

variable {lookup : Option Lookup} {language : Language}

theorem Dialect.HostFree.failsIn {d : Dialect} (h : d.HostFree) :
    d.FailsIn (EvalError.TellsTrue lookup language) (· = language) :=
  h.imp (fun e he => BuiltInsEnsure.failsIn.evaluator e he) (fun c hc => BuiltInsEnsure.failsIn.condition c hc)
    fun _ hpart => hpart.elim

theorem admits_tellsTrue : Admits (EvalError.TellsTrue lookup language) (· = language) lookup where
  plain := by
    rintro e he space key suggested rfl
    exact he.elim
  cyclic := by
    rintro chain space key suggested ⟨⟩
  unresolved := by
    rintro _ rfl space key suggested hlacks _ _ _ ⟨⟩
    exact hlacks
  unreadable := by
    rintro _ - books - space key text - e he _ _ _ rfl
    cases he

end

theorem Compiled.lacks_of_evaluate {d : Dialect} (hd : d.HostFree) {pattern : String} {c : Compiled}
    (hc : d.compile pattern = .ok c) {ctx : Context} (hlookup : ∀ books ∈ ctx.lookup, books.dialect.HostFree)
    {space key : String} {suggested : List String}
    (h : (c.evaluate ctx).1 = .error (.unresolvedLookup space key suggested)) :
    Lacks ctx.lookup ctx.language space key suggested :=
  error_of_evaluate hd.failsIn hc admits_tellsTrue (fun books hbooks => (hlookup books hbooks).failsIn) rfl h
    space key suggested rfl

/-- The keys suggested for an unknown one: those of its namespace that, in lower case, not many edits lead to,
the nearest first, and of two that are as near the one that comes first in order. -/
structure Store.Suggests (writes : List (Slot × String)) (space wanted : String) (suggested : List String) : Prop where
  mem_iff : ∀ key, key ∈ suggested ↔ (∃ w ∈ writes, w.1.space = space ∧ w.1.key = key) ∧
    ∃ n ≤ max 1 (wanted.toList.length / 3), Text.Edits (Text.lowered wanted).toList (Text.lowered key).toList n
  nearest_first : suggested.Pairwise (Text.Nearer wanted)

theorem Store.suggests_suggestions (writes : List (Slot × String)) (space wanted : String) :
    Suggests writes space wanted (Text.suggestions wanted ((ofWrites writes).keys space)) where
  mem_iff key := by
    have hleast := Text.distance_isLeast (Text.lowered wanted).toList (Text.lowered key).toList
    rw [Text.mem_suggestions_iff, mem_keys_ofWrites_iff]
    refine and_congr_right fun _ => ⟨fun hle => ⟨_, hle, hleast.1⟩, ?_⟩
    rintro ⟨n, hn, hedits⟩
    exact (hleast.2 hedits).trans hn
  nearest_first := Text.pairwise_nearer_suggestions
    ((pairwise_lt_keys (inOrder_ofWrites writes) space).imp Std.ne_of_lt)

theorem Evaluator.renderStored_lacks {deeper : Deeper} {lookupKey : LookupKey} {arguments : List LookupArgument}
    {ctx : Context} {books : Lookup} {space key : String} (hbooks : ctx.lookup = some books)
    (htarget : target? lookupKey ctx = some (space, key)) (h : books.store.find? space key ctx.language = none) :
    renderStored deeper lookupKey arguments ctx =
      (.error (.unresolvedLookup space key (Text.suggestions key (books.store.keys space))), ctx) := by
  have hget : (get : Run Context) ctx = (.ok ctx, ctx) := rfl
  rw [renderStored, Run.bind_apply, hget]
  dsimp only
  rw [htarget]
  dsimp only
  rw [hbooks]
  dsimp only
  rw [h]
  rfl

namespace Engine

theorem renderIn_lacks {e : Engine} {space key : String} {language : Language}
    (h : e.pattern? space key language = none) (parameters : ParameterSet) :
    e.renderIn space key language parameters =
      (.error (.unresolvedLookup space key (Text.suggestions key (e.store.keys space))), e) := by
  rw [renderIn, h]

/-- Whoever asks for a key under which nothing is found is told the keys near it: when it is to be rendered, when a
pattern refers to it, and whenever an evaluation without hosts fails because of it. Near are, whatever the languages
that something is stored for under them, the keys of the same namespace that few edits lead to, the nearest first;
in which order the keys are known does not matter. -/
theorem suggests_near_keys {e : Engine} {writes : List (Slot × String)} (hstore : e.store = .ofWrites writes) :
    (∀ space key language parameters, e.pattern? space key language = none → ∃ suggested,
      (e.renderIn space key language parameters).1 = .error (.unresolvedLookup space key suggested) ∧
        Store.Suggests writes space key suggested) ∧
    (∀ deeper lookupKey arguments (ctx : Context) space key, ctx.lookup = some e.lookup →
      Evaluator.target? lookupKey ctx = some (space, key) → e.pattern? space key ctx.language = none → ∃ suggested,
        ((Evaluator.lookup lookupKey arguments).evaluate deeper ctx).1 =
            .error (.unresolvedLookup space key suggested) ∧
          Store.Suggests writes space key suggested) ∧
    (∀ pattern c (ctx : Context) space key suggested, e.dialect.HostFree → e.dialect.compile pattern = .ok c →
      ctx.lookup = some e.lookup → (c.evaluate ctx).1 = .error (.unresolvedLookup space key suggested) →
      e.pattern? space key ctx.language = none ∧ Store.Suggests writes space key suggested) ∧
    (∀ s t, IsLeast {n | Text.Edits s t n} (Text.distance s t)) ∧
    ∀ wanted (known known' : List String), known.Perm known' →
      Text.suggestions wanted known = Text.suggestions wanted known' := by
  have hsuggests (space key : String) :
      Store.Suggests writes space key (Text.suggestions key (e.store.keys space)) := by
    rw [hstore]
    exact Store.suggests_suggestions writes space key
  refine ⟨fun space key language parameters h => ?_,
    fun deeper lookupKey arguments ctx space key hbooks htarget h => ?_,
    fun pattern c ctx space key suggested hhosts hc hbooks herror => ?_, Text.distance_isLeast,
    fun wanted known known' => Text.suggestions_eq_of_perm⟩
  · rw [renderIn_lacks h]
    exact ⟨_, rfl, hsuggests space key⟩
  · rw [Evaluator.evaluate, Evaluator.renderStored_lacks hbooks htarget h]
    exact ⟨_, rfl, hsuggests space key⟩
  · have hlookup : ∀ books ∈ ctx.lookup, books.dialect.HostFree := by
      rw [hbooks]
      rintro _ ⟨⟩
      exact hhosts
    have hlacks := Compiled.lacks_of_evaluate hhosts hc hlookup herror
    rw [hbooks] at hlacks
    obtain ⟨hnone, rfl⟩ := hlacks
    exact ⟨hnone, hsuggests space key⟩

def isUnresolved {α : Type} (space key : String) : Except EvalError α → Bool
  | .error (.unresolvedLookup space' key' _) => space' == space && key' == key
  | _ => false

theorem exists_of_isUnresolved {α : Type} {space key : String} {result : Except EvalError α}
    (h : isUnresolved space key result = true) :
    ∃ suggested, result = .error (.unresolvedLookup space key suggested) := by
  unfold isUnresolved at h
  split at h
  next space' key' suggested =>
    rw [Bool.and_eq_true, beq_iff_eq, beq_iff_eq] at h
    exact ⟨suggested, by rw [h.1, h.2]⟩
  next => cases h

/-- Greetings in two languages, one that refers to a key that only another namespace has, and other keys. -/
def greetings : List (Slot × String) :=
  [(⟨"", "Greeting", "en"⟩, "Hello"), (⟨"", "greetings", ""⟩, "{@Greting}"), (⟨"shop", "Greting", ""⟩, "Welcome"),
    (⟨"", "Greeting", "de"⟩, "Hallo"), (⟨"", "Farewell", ""⟩, "Goodbye")]

def welcoming : Engine where
  store := .ofWrites greetings

theorem suggests_near_keys_greetings :
    ((welcoming.renderIn "" "Greting" .invariant .empty).1 =
        .error (.unresolvedLookup "" "Greting" ["Greeting", "greetings"]) ∧
      Store.Suggests greetings "" "Greting" ["Greeting", "greetings"]) ∧
    (∃ suggested, ((Evaluator.lookup (.fixed "Greting") []).evaluate (.level 1) (welcoming.context .empty)).1 =
        .error (.unresolvedLookup "" "Greting" suggested) ∧ Store.Suggests greetings "" "Greting" suggested) ∧
    ∃ c suggested, Dialect.standard.compile "{@greetings}" = .ok c ∧
      (c.evaluate (welcoming.context .empty)).1 = .error (.unresolvedLookup "" "Greting" suggested) ∧
      welcoming.pattern? "" "Greting" .invariant = none ∧ Store.Suggests greetings "" "Greting" suggested := by
  have hnone : welcoming.pattern? "" "Greting" .invariant = none := by decide +kernel
  have hkeys : welcoming.store.keys "" = ["Farewell", "Greeting", "greetings"] := by decide +kernel
  have hnear : Text.suggestions "Greting" ["Farewell", "Greeting", "greetings"] = ["Greeting", "greetings"] := by
    have hfilter : ["Farewell", "Greeting", "greetings"].filter (fun key =>
        Text.lowerDistance "Greting" key ≤ Text.tolerance "Greting") = ["Greeting", "greetings"] := by
      decide +kernel
    rw [Text.suggestions, hfilter, List.mergeSort_of_pairwise (by decide +kernel)]
  have hevaluate : (Dialect.standard.compile "{@greetings}").toOption.any (fun c =>
      isUnresolved "" "Greting" (c.evaluate (welcoming.context .empty)).1) = true := by
    decide +kernel
  obtain ⟨hrender, hlookup, hrun, -⟩ := suggests_near_keys (e := welcoming) rfl
  refine ⟨?_, hlookup _ _ _ _ _ _ rfl (by decide +kernel) hnone, ?_⟩
  · obtain ⟨suggested, htold, hsuggests⟩ := hrender "" "Greting" .invariant .empty hnone
    have heq := htold
    rw [renderIn_lacks hnone, hkeys, hnear] at heq
    cases heq
    exact ⟨htold, hsuggests⟩
  · obtain ⟨c, hc, hfails⟩ := any_toOption_iff.mp hevaluate
    obtain ⟨suggested, herror⟩ := exists_of_isUnresolved hfails
    exact ⟨c, suggested, hc, herror, hrun _ c _ _ _ _ Dialect.standard_hostsEnsure hc rfl herror⟩

end Engine

end Phrasebook
