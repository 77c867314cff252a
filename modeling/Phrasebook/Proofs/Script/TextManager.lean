import Phrasebook.Proofs.Dialect.Binding
import Phrasebook.Proofs.Store
import Phrasebook.Proofs.Text.Pieces
import Phrasebook.Script.Catalog

namespace Phrasebook

open Script

structure TextManager where
  space : String
  properties : List (String × String)

namespace TextManager

/-- Of two properties of one name the later counts. -/
def property? (m : TextManager) (name : String) : Option String :=
  (m.properties.filter fun p => p.1 = name).getLast?.map Prod.snd

/-- Functions are looked for before texts. -/
def find? (m : TextManager) (space key : String) : Option String :=
  let name := if space = m.space then key else space ++ "__" ++ key
  (m.property? ("1" ++ name)).or (m.property? ("0" ++ name))

def object (m : TextManager) : String :=
  "\x7b\n" ++ Text.joined ",\n" (m.properties.map fun p => Text.literal p.1 ++ ":" ++ p.2) ++ "\n\x7d"

end TextManager

structure Definition where
  space : String
  key : String
  pattern : String

def Definition.isFor (space key : String) (x : Definition) : Bool :=
  x.space = space ∧ x.key = key

def Store.ofDefinitions (xs : List Definition) : Store :=
  xs.foldl (fun store x => store.insert x.space x.key "" x.pattern) .empty

namespace Script

def Entry.source (c : Catalog) (r : Registry) (entry : Entry) : String :=
  (generate r (c.scope entry) entry.pattern.bound).source

def Entry.isFor (space key : String) (entry : Entry) : Bool :=
  entry.space = space ∧ entry.key = key

def Entry.isText (entry : Entry) : Bool :=
  isPlain entry.pattern.bound

/-- The latest function, or where there is none the latest text. -/
def Entry.preferred? (entries : List Entry) : Option Entry :=
  (entries.filter fun entry => !entry.isText).getLast?.or (entries.filter Entry.isText).getLast?

namespace Catalog

def manager (c : Catalog) (r : Registry) : TextManager :=
  ⟨c.space, c.entries.map fun entry => (c.property entry, entry.source c r)⟩

def define (c : Catalog) (d : Dialect) (xs : List Definition) : Except CatalogError Catalog :=
  xs.foldlM (fun c x => c.compile d x.space x.key x.pattern) c

def source? (c : Catalog) (r : Registry) (d : Dialect) (space pattern : String) : Option String :=
  (d.compile pattern).toOption.map fun compiled => (generate r ⟨space, c.language, c.lookup⟩ compiled.bound).source

end Catalog

end Script

def Definition.isText (d : Dialect) (x : Definition) : Bool :=
  (d.compile x.pattern).toOption.any fun compiled => isPlain compiled.bound

theorem Store.get?_ofDefinitions (xs : List Definition) (space key : String) :
    (ofDefinitions xs).get? space key "" =
      ((xs.filter (Definition.isFor space key)).getLast?).map Definition.pattern := by
  induction xs using List.reverseRecOn with
  | nil => rfl
  | append_singleton xs x ih =>
      rw [ofDefinitions] at ih ⊢
      rw [List.foldl_append, List.foldl_cons, List.foldl_nil, get?_insert, ih]
      by_cases h : x.space = space ∧ x.key = key
      · simp [Definition.isFor, h]
      · have hslot : (⟨space, key, ""⟩ : Slot) ≠ ⟨x.space, x.key, ""⟩ := by
          intro he
          cases he
          exact h ⟨rfl, rfl⟩
        simp [Definition.isFor, h, hslot]

namespace Script

section

variable {c c' : Catalog} {r : Registry} {d : Dialect} {xs : List Definition} {space key : String}

def Entry.IsMadeOf (d : Dialect) (x : Definition) (entry : Entry) : Prop :=
  d.compile x.pattern = .ok entry.pattern ∧ entry.space = x.space ∧ entry.key = x.key

theorem Catalog.define_entries (h : c.define d xs = .ok c') :
    ∃ entries, List.Forall₂ (Entry.IsMadeOf d) xs entries ∧ c' = { c with entries := c.entries ++ entries } := by
  induction xs generalizing c with
  | nil =>
      cases h
      exact ⟨[], .nil, by simp⟩
  | cons x xs ih =>
      rw [define, List.foldlM_cons, bind_eq_ok_iff] at h
      obtain ⟨c₁, hx, hxs⟩ := h
      unfold Catalog.compile at hx
      split at hx
      next compiled hcompiled =>
        cases hx
        obtain ⟨entries, hentries, rfl⟩ := ih hxs
        exact ⟨⟨x.space, x.key, compiled⟩ :: entries, .cons ⟨hcompiled, rfl, rfl⟩ hentries, by simp [insert]⟩
      next => cases hx

theorem forall₂_getLast? {α β : Type} {R : α → β → Prop} {as : List α} {bs : List β} (h : List.Forall₂ R as bs) :
    Option.Rel R as.getLast? bs.getLast? := by
  have hreverse : List.Forall₂ R as.reverse bs.reverse := List.rel_reverse h
  rw [List.getLast?_eq_head?_reverse, List.getLast?_eq_head?_reverse]
  generalize as.reverse = as', bs.reverse = bs' at hreverse
  cases hreverse with
  | nil => exact .none
  | cons h _ => exact .some h

theorem forall_congr_of_forall₂ {α β : Type} {R : α → β → Prop} {p : α → Prop} {q : β → Prop} {as : List α}
    {bs : List β} (h : List.Forall₂ R as bs) (hpq : ∀ a b, R a b → (p a ↔ q b)) :
    (∀ a ∈ as, p a) ↔ ∀ b ∈ bs, q b := by
  induction h with
  | nil => simp
  | cons hab _ ih => rw [List.forall_mem_cons, List.forall_mem_cons, hpq _ _ hab, ih]

theorem getLast?_filter_of_pos {α : Type} {p : α → Bool} {as : List α} {a : α} (h : as.getLast? = some a)
    (ha : p a = true) : (as.filter p).getLast? = some a := by
  obtain ⟨bs, rfl⟩ := List.getLast?_eq_some_iff.mp h
  simp [ha]

theorem head?_source (entry : Entry) :
    (entry.source c r).toList.head? = some (if entry.isText then '"' else 'f') := by
  rw [Entry.source, generate, Code.text, String.toList_ofList, Entry.isText, isPlain]
  rcases entry.pattern.bound with _ | ⟨p, _ | ⟨q, rest⟩⟩
  · rfl
  · cases p with
    | text content => simp [entryCode, Code.chars, Text.literal, BoundExpression.text?]
    | _ => rfl
  · cases p <;> rfl

theorem source_ne {entry entry' : Entry} (h : entry.isText = true) (h' : entry'.isText = false) :
    entry.source c r ≠ entry'.source c r := by
  intro he
  have hhead := head?_source (c := c) (r := r) entry
  rw [he, head?_source, h, h'] at hhead
  revert hhead
  decide

theorem property_eq_iff (entry : Entry) (name : String) :
    (c.property entry = "1" ++ name ↔ entry.isText = false ∧ c.qualifiedKey entry.space entry.key = name) ∧
      (c.property entry = "0" ++ name ↔ entry.isText = true ∧ c.qualifiedKey entry.space entry.key = name) := by
  have hdigits (s t : String) : "0" ++ s ≠ "1" ++ t := by
    rw [Ne, ← String.toList_inj, String.toList_append, String.toList_append]
    exact fun h => absurd (List.cons.inj h).1 (by decide)
  rw [Catalog.property, Entry.isText]
  cases isPlain entry.pattern.bound with
  | true => simp [String.append_right_inj, hdigits]
  | false => simp [String.append_right_inj, (hdigits _ _).symm]

theorem manager_find? (c : Catalog) (r : Registry) (space key : String) :
    (c.manager r).find? space key = (Entry.preferred? (c.entries.filter fun entry =>
      c.qualifiedKey entry.space entry.key = c.qualifiedKey space key)).map (Entry.source c r) := by
  have hproperty (name : String) : (c.manager r).property? name =
      ((c.entries.filter fun entry => c.property entry = name).getLast?).map (Entry.source c r) := by
    rw [TextManager.property?, Catalog.manager, List.filter_map, List.getLast?_map, Option.map_map]
    rfl
  have hfind : (c.manager r).find? space key = ((c.manager r).property? ("1" ++ c.qualifiedKey space key)).or
      ((c.manager r).property? ("0" ++ c.qualifiedKey space key)) := rfl
  rw [hfind, hproperty, hproperty, Entry.preferred?, List.filter_filter, List.filter_filter, Option.map_or]
  simp only [(property_eq_iff _ _).1, (property_eq_iff _ _).2]
  simp

theorem preferred?_eq_none_iff {entries : List Entry} : Entry.preferred? entries = none ↔ entries = [] := by
  rw [Entry.preferred?, Option.or_eq_none_iff, List.getLast?_eq_none_iff, List.getLast?_eq_none_iff,
    List.filter_eq_nil_iff, List.filter_eq_nil_iff, List.eq_nil_iff_forall_not_mem]
  constructor
  · rintro ⟨hfunction, htext⟩ entry hentry
    exact hfunction entry hentry (by simpa using htext entry hentry)
  · intro h
    exact ⟨fun entry hentry => (h entry hentry).elim, fun entry hentry => (h entry hentry).elim⟩

/-- The latest entry is preferred unless it is a text and comes after a function. -/
theorem source_preferred?_iff (entries : List Entry) :
    (Entry.preferred? entries).map (Entry.source c r) = entries.getLast?.map (Entry.source c r) ↔
      ∀ last ∈ entries.getLast?, last.isText = true → ∀ entry ∈ entries, entry.isText = true := by
  rw [Entry.preferred?]
  cases hlast : entries.getLast? with
  | none =>
      obtain rfl := List.getLast?_eq_none_iff.mp hlast
      simp
  | some last =>
      cases hkind : last.isText with
      | false =>
          rw [getLast?_filter_of_pos hlast (by simp [hkind])]
          simp [hkind]
      | true =>
          cases hfunction : (entries.filter fun entry => !entry.isText).getLast? with
          | none =>
              rw [List.getLast?_eq_none_iff, List.filter_eq_nil_iff] at hfunction
              rw [getLast?_filter_of_pos hlast hkind]
              simpa using fun _ => hfunction
          | some entry =>
              have hentry := List.mem_filter.mp (List.mem_of_getLast? hfunction)
              have hne : entry.source c r ≠ last.source c r :=
                (source_ne hkind (by simpa using hentry.2)).symm
              constructor
              · intro h
                exact (hne (Option.some.inj h)).elim
              · intro h
                have := h last rfl hkind entry hentry.1
                simp [this] at hentry

theorem exists_text_eq_object (c : Catalog) (r : Registry) :
    ∃ before after, c.text r = before ++ (c.manager r).object ++ after := by
  have htext : c.text r = (if c.includesSupport then support else "") ++ "var " ++ c.name ++
      "=new Glot.TextManager(" ++ Text.literal c.space ++ "," ++ c.cultureCode.text ++ "," ++
      (if c.encodes then "true" else "false") ++ ",function(" ++ supportNames ++ ")\x7b\n" ++
      r.helpers (c.findings r).used ++ "return \x7b\n" ++ Text.joined ",\n" (c.entries.map (c.entryText r)) ++
      "\n\x7d;\n\x7d);\n" := rfl
  have hobject : (c.manager r).object = "\x7b\n" ++ Text.joined ",\n" (c.entries.map (c.entryText r)) ++ "\n\x7d" := by
    rw [TextManager.object, Catalog.manager, List.map_map]
    rfl
  rw [htext, hobject]
  generalize Text.joined ",\n" (c.entries.map (c.entryText r)) = properties
  generalize _ ++ r.helpers (c.findings r).used = before
  refine ⟨before ++ "return ", ";\n\x7d);\n", ?_⟩
  simp only [← String.toList_inj, String.toList_append, List.append_assoc]
  rfl

abbrev MadeFor (d : Dialect) (space key : String) (xs : List Definition) (entries : List Entry) : Prop :=
  List.Forall₂ (fun x entry => x.isFor space key = true ∧ Entry.IsMadeOf d x entry) xs entries

theorem Entry.IsMadeOf.isText_eq {x : Definition} {entry : Entry} (h : Entry.IsMadeOf d x entry) :
    x.isText d = entry.isText := by
  rw [Definition.isText, h.1]
  rfl

theorem bind_source?_eq {entries : List Entry} (h : MadeFor d space key xs entries) :
    (xs.getLast?.map Definition.pattern).bind (c.source? r d space) =
      entries.getLast?.map (Entry.source c r) := by
  have hlast := forall₂_getLast? h
  generalize xs.getLast? = last, entries.getLast? = last' at hlast
  cases hlast with
  | none => rfl
  | @some x entry hmade =>
      obtain ⟨hx, hcompile, hspace, -⟩ := hmade
      rw [Definition.isFor, decide_eq_true_eq] at hx
      simp [Catalog.source?, hcompile, Except.toOption, Entry.source, Catalog.scope, hspace, hx.1]

theorem forall_isText_iff {entries : List Entry} (h : MadeFor d space key xs entries) :
    (∀ last ∈ entries.getLast?, last.isText = true → ∀ entry ∈ entries, entry.isText = true) ↔
      ∀ last ∈ xs.getLast?, last.isText d = true → ∀ x ∈ xs, x.isText d = true := by
  have hall : (∀ x ∈ xs, x.isText d = true) ↔ ∀ entry ∈ entries, entry.isText = true :=
    forall_congr_of_forall₂ h fun x entry hmade => by rw [hmade.2.isText_eq]
  have hlast := forall₂_getLast? h
  rw [hall]
  generalize xs.getLast? = last, entries.getLast? = last' at hlast
  cases hlast with
  | none => simp
  | some hmade => simp [hmade.2.isText_eq]

namespace Catalog

/-- A text manager finds under a key what is generated from the pattern that a store of the same definitions
has there, exactly if no function is replaced by a text: functions are found before texts, of which the
store knows nothing. This is for keys whose name is that of no other key. -/
theorem manager_find?_iff (hempty : c.entries = []) (hdefine : c.define d xs = .ok c')
    (hapart : ∀ x ∈ xs, c.qualifiedKey x.space x.key = c.qualifiedKey space key → x.space = space ∧ x.key = key) :
    (∃ before after, c'.text r = before ++ (c'.manager r).object ++ after) ∧
      ((c'.manager r).find? space key = none ↔ (Store.ofDefinitions xs).get? space key "" = none) ∧
      ((c'.manager r).find? space key = ((Store.ofDefinitions xs).get? space key "").bind (c.source? r d space) ↔
        ∀ last ∈ (xs.filter (Definition.isFor space key)).getLast?, last.isText d = true →
          ∀ x ∈ xs.filter (Definition.isFor space key), x.isText d = true) := by
  obtain ⟨entries, hentries, rfl⟩ := define_entries hdefine
  have hmade : MadeFor d space key (xs.filter (Definition.isFor space key))
      (entries.filter fun entry => c.qualifiedKey entry.space entry.key = c.qualifiedKey space key) := by
    refine (List.forall₂_and_left _ _).mpr ⟨fun x hx => (List.mem_filter.mp hx).2, ?_⟩
    refine (List.rel_filter ?_ ((List.forall₂_and_left _ _).mpr ⟨hapart, hentries⟩)).imp fun _ _ h => h.2
    rintro x entry ⟨hx, -, hspace, hkey⟩
    simp only [Definition.isFor, hspace, hkey, decide_eq_true_eq]
    refine ⟨?_, hx⟩
    rintro ⟨rfl, rfl⟩
    rfl
  rw [manager_find?, Store.get?_ofDefinitions, hempty, List.nil_append]
  refine ⟨exists_text_eq_object _ r, ?_, ?_⟩
  · rw [Option.map_eq_none_iff, preferred?_eq_none_iff, Option.map_eq_none_iff, List.getLast?_eq_none_iff]
    exact ⟨fun h => List.length_eq_zero_iff.mp (hmade.length_eq.trans (List.length_eq_zero_iff.mpr h)),
      fun h => List.length_eq_zero_iff.mp (hmade.length_eq.symm.trans (List.length_eq_zero_iff.mpr h))⟩
  · rw [bind_source?_eq hmade]
    exact (source_preferred?_iff _).trans (forall_isText_iff hmade)

/-- In the catalog's namespace a key has no mark in it, and elsewhere the mark after the namespace is the
first in the name. -/
def isUnambiguous (c : Catalog) (space key : String) : Bool :=
  (Text.splitOnce Condition.spaceMark (if space = c.space then key.toList else space.toList ++ ['_'])).isNone

theorem splitOnce_qualifiedKey (h : c.isUnambiguous space key = true) :
    Text.splitOnce Condition.spaceMark (c.qualifiedKey space key).toList =
      if space = c.space then none else some (space.toList, key.toList) := by
  rw [isUnambiguous, Option.isNone_iff_eq_none] at h
  rw [qualifiedKey]
  by_cases hspace : space = c.space
  · rw [if_pos hspace] at h ⊢
    rw [if_pos hspace, h]
  · rw [if_neg hspace] at h ⊢
    rw [if_neg hspace, String.toList_append, String.toList_append, String.toList_ofList]
    exact Text.splitOnce_append (by decide) h key.toList

theorem eq_of_qualifiedKey_eq {space' key' : String} (h : c.isUnambiguous space key = true)
    (h' : c.isUnambiguous space' key' = true) (hname : c.qualifiedKey space key = c.qualifiedKey space' key') :
    space = space' ∧ key = key' := by
  have hsplit := splitOnce_qualifiedKey h
  rw [hname, splitOnce_qualifiedKey h'] at hsplit
  by_cases hspace : space = c.space
  · by_cases hspace' : space' = c.space
    · rw [qualifiedKey, qualifiedKey, if_pos hspace, if_pos hspace'] at hname
      exact ⟨hspace.trans hspace'.symm, hname⟩
    · simp [hspace, hspace'] at hsplit
  · by_cases hspace' : space' = c.space
    · simp [hspace, hspace'] at hsplit
    · simp only [if_neg hspace, if_neg hspace', Option.some.injEq, Prod.mk.injEq, String.toList_inj] at hsplit
      exact ⟨hsplit.1.symm, hsplit.2.symm⟩

def shopDefinitions : List Definition :=
  [⟨"shop", "motto", "open"⟩, ⟨"", "greeting", "Hello"⟩, ⟨"", "greeting", "Hello {name}"⟩, ⟨"shop", "motto", "closed"⟩]

theorem manager_find?_shop :
    ∃ c, define { name := "texts", space := "shop" } .standard shopDefinitions = .ok c ∧
      (c.manager .standard).find? "" "greeting" =
        some ("function(c)\x7breturn [e(\"Hello \"),(function()\x7bvar v=c.g(\"name\");" ++
          "return af(v,dv(v),true);\x7d)()].join('');\x7d") := by
  have hdefine : ((define { name := "texts", space := "shop" } .standard shopDefinitions).toOption.isSome) = true := by
    decide +kernel
  have hclear : ∀ x ∈ shopDefinitions,
      isUnambiguous { name := "texts", space := "shop" } x.space x.key = true := by decide
  have hlast : (shopDefinitions.filter (Definition.isFor "" "greeting")).getLast? =
      some ⟨"", "greeting", "Hello {name}"⟩ := rfl
  have hfunction : Definition.isText .standard ⟨"", "greeting", "Hello {name}"⟩ = false := by decide +kernel
  obtain ⟨c, hc⟩ := isSome_toOption_iff.mp hdefine
  refine ⟨c, hc, ((manager_find?_iff rfl hc fun x hx =>
    eq_of_qualifiedKey_eq (hclear x hx) (by decide)).2.2.mpr ?_).trans ?_⟩
  · rw [hlast]
    rintro _ ⟨⟩ htext
    rw [hfunction] at htext
    cases htext
  · decide +kernel

def replacedByText : List Definition := [⟨"", "k", "{N}"⟩, ⟨"", "k", "plain"⟩]

def sameName : List Definition := [⟨"a", "b__c", "x"⟩, ⟨"a__b", "c", "y"⟩]

/-- The function is found where the store has the text that replaces it, and of two keys with one name
only the later is found. -/
theorem manager_find?_ne :
    (∃ c, define { name := "texts" } .standard replacedByText = .ok c ∧ (c.findings .standard).missing = [] ∧
      (Store.ofDefinitions replacedByText).get? "" "k" "" = some "plain" ∧
      source? c .standard .standard "" "plain" = some "\"plain\"" ∧
      (c.manager .standard).find? "" "k" =
        some "function(c)\x7breturn (function()\x7bvar v=c.g(\"N\");return af(v,dv(v),true);\x7d)();\x7d") ∧
    ∃ c, define { name := "texts" } .standard sameName = .ok c ∧ (c.findings .standard).missing = [] ∧
      (Store.ofDefinitions sameName).get? "a" "b__c" "" = some "x" ∧
      source? c .standard .standard "a" "x" = some "\"x\"" ∧
      (c.manager .standard).find? "a" "b__c" = some "\"y\"" := by
  have hreplaced : (define { name := "texts" } .standard replacedByText).toOption.any (fun c =>
      (c.findings .standard).missing = [] ∧ source? c .standard .standard "" "plain" = some "\"plain\"" ∧
        (c.manager .standard).find? "" "k" =
          some "function(c)\x7breturn (function()\x7bvar v=c.g(\"N\");return af(v,dv(v),true);\x7d)();\x7d") =
      true := by decide +kernel
  have hname : (define { name := "texts" } .standard sameName).toOption.any (fun c =>
      (c.findings .standard).missing = [] ∧ source? c .standard .standard "a" "x" = some "\"x\"" ∧
        (c.manager .standard).find? "a" "b__c" = some "\"y\"") = true := by decide +kernel
  obtain ⟨c, hc, hfound⟩ := any_toOption_iff.mp hreplaced
  obtain ⟨c', hc', hfound'⟩ := any_toOption_iff.mp hname
  rw [decide_eq_true_eq] at hfound hfound'
  exact ⟨⟨c, hc, hfound.1, by decide, hfound.2⟩, c', hc', hfound'.1, by decide, hfound'.2⟩

end Catalog

end

end Script

end Phrasebook
