import Phrasebook.Evaluation.Render

namespace Phrasebook

mutual

def Value.isEncoded : Value → Bool
  | .list items => Value.itemsEncoded items
  | .record fields => Value.fieldsEncoded fields
  | _ => true

def Parameter.isEncoded : Parameter → Bool
  | ⟨value, _, wrapping⟩ => wrapping.isEncoded && value.isEncoded

def Value.itemsEncoded : List Parameter → Bool
  | [] => true
  | item :: rest => item.isEncoded && Value.itemsEncoded rest

def Field.isEncoded : Field → Bool
  | ⟨_, value⟩ => value.isEncoded

def Value.fieldsEncoded : List Field → Bool
  | [] => true
  | field :: rest => field.isEncoded && Value.fieldsEncoded rest

end

theorem Value.itemsEncoded_iff {items : List Parameter} :
    itemsEncoded items = true ↔ ∀ item ∈ items, item.isEncoded = true := by
  induction items with
  | nil => simp [itemsEncoded]
  | cons item rest ih => rw [itemsEncoded, Bool.and_eq_true, ih, List.forall_mem_cons]

theorem Value.fieldsEncoded_iff {fields : List Field} :
    fieldsEncoded fields = true ↔ ∀ field ∈ fields, field.value.isEncoded = true := by
  induction fields with
  | nil => simp [fieldsEncoded]
  | cons field rest ih =>
      obtain ⟨name, value⟩ := field
      rw [fieldsEncoded, Bool.and_eq_true, ih, List.forall_mem_cons, Field.isEncoded]

theorem Parameter.isEncoded_iff {p : Parameter} :
    p.isEncoded = true ↔ p.wrapping = .encoded ∧ p.value.isEncoded = true := by
  obtain ⟨value, own, wrapping⟩ := p
  rw [Parameter.isEncoded, Bool.and_eq_true]
  cases wrapping <;> simp [Wrapping.isEncoded]

theorem Parameter.isEncoded_plain {value : Value} : (plain value).isEncoded = value.isEncoded := by
  rw [plain, isEncoded, Wrapping.isEncoded, Bool.true_and]

theorem Parameter.wrapping_atOffset (p : Parameter) (zone : Int) :
    (p.atOffset zone).wrapping = p.wrapping := by
  unfold atOffset
  split <;> rfl

theorem Parameter.defaultFormat_atOffset (p : Parameter) (zone : Int) :
    (p.atOffset zone).defaultFormat = p.defaultFormat := by
  unfold atOffset
  split <;> rfl

theorem Parameter.value_element (list item : Parameter) : (list.element item).value = item.value := by
  unfold element
  dsimp only
  split <;> split <;> rfl

theorem Parameter.wrapping_element (list item : Parameter) :
    (list.element item).wrapping = item.wrapping ∨ (list.element item).wrapping = list.wrapping := by
  unfold element
  dsimp only
  split <;> split
  · exact .inr rfl
  · exact .inl rfl
  · exact .inr rfl
  · exact .inl rfl

theorem Parameter.mem_defaultFormat_element {list item : Parameter} {f : Formatter}
    (h : f ∈ (list.element item).defaultFormat) : f ∈ item.defaultFormat ∨ f ∈ list.defaultFormat := by
  unfold element at h
  dsimp only at h
  split at h
  next hlist =>
    cases h
    exact .inr hlist
  next =>
    split at h
    · exact .inr h
    · exact .inl h

/-- A parameter is written by the formatter that is asked for or by one that it carries. -/
theorem Formatter.own?_closed {F : Formatter → Prop} {f : Formatter} {p : Parameter} (hf : F f)
    (hown : ∀ f ∈ p.defaultFormat, F f) : F ((f.own? p).getD f) := by
  cases h : f.own? p with
  | none => exact hf
  | some own =>
      unfold own? at h
      split at h
      · exact hown own (Option.filter_eq_some_iff.mp h).1
      · cases h

theorem Formatter.apply_congr {hosts : Host} {scene scene' : Scene} (hlanguage : scene'.language = scene.language)
    {f : Formatter} {p : Parameter}
    (h : ∀ host, (f.own? p).getD f = .host host → hosts.format host p scene' = hosts.format host p scene) :
    f.apply hosts scene' p = f.apply hosts scene p := by
  unfold apply
  generalize (f.own? p).getD f = g at h
  cases g with
  | host host => exact h host rfl
  | roman => rfl
  | letterCase | formatString | default => simp only [applyOwn, hlanguage]

theorem Parameter.write_congr {ctx : Context} {layers : Layers} {maxDepth : Nat}
    (h : ∀ host p, ctx.host.format host p { ctx.toScene with layers, maxDepth } = ctx.host.format host p ctx.toScene)
    (p : Parameter) (f : Formatter) : p.write f { ctx with layers, maxDepth } = p.write f ctx := by
  have happly : f.apply ctx.host { ctx.toScene with layers, maxDepth } (p.atOffset ctx.zone) =
      f.apply ctx.host ctx.toScene (p.atOffset ctx.zone) := by
    apply Formatter.apply_congr
    · rfl
    · exact fun host _ => h host (p.atOffset ctx.zone)
  simp only [write, happly]

section

variable {P : Value → Prop} (hinteger : ∀ n, P (.integer n)) (hfloat : ∀ x, P (.float x))
  (hrecord : ∀ fields, P (.record fields) → ∀ field ∈ fields, P field.value)

include hinteger hfloat

theorem Property.ofSpan?_closed {d : Span} {name : String} {part : Value} (h : Property.ofSpan? d name = some part) :
    P part := by
  unfold Property.ofSpan? at h
  split at h <;> cases h
  all_goals first | exact hinteger _ | exact hfloat _

include hrecord

/-- What holds of numbers and of what records hold, holds of the parts of a value. -/
theorem Value.property?_closed {value part : Value} {name : String} (hvalue : P value)
    (h : value.property? name = some part) : P part := by
  cases value with
  | record fields =>
      obtain ⟨field, hfind, rfl⟩ := Option.map_eq_some_iff.mp h
      exact hrecord fields hvalue field (List.mem_of_find?_eq_some hfind)
  | span d => exact Property.ofSpan?_closed hinteger hfloat h
  | moment m =>
      unfold property? Property.ofMoment? at h
      dsimp only at h
      split at h <;> cases h <;> exact hinteger _
  | text | list =>
      unfold property? at h
      dsimp only at h
      split at h <;> cases h
      exact hinteger _
  | null | bool | integer | float => cases h

theorem Evaluator.follow_closed (hnull : P .null) {value part : Value} {path : List String} (hvalue : P value)
    (h : follow value path = .ok part) : P part := by
  fun_induction follow value path with
  | case1 value =>
      cases h
      exact hvalue
  | case2 =>
      cases h
      exact hnull
  | case3 value name rest _ found hfound ih =>
      exact ih (Value.property?_closed hinteger hfloat hrecord hvalue hfound) h
  | case4 => cases h

end

theorem Evaluator.isEncoded_follow {value part : Value} {path : List String}
    (hvalue : value.isEncoded = true) (h : follow value path = .ok part) : part.isEncoded = true :=
  follow_closed (P := fun value => value.isEncoded = true) (fun _ => rfl) (fun _ => rfl)
    (fun _ h => Value.fieldsEncoded_iff.mp h) rfl hvalue h

theorem Parameter.isEncoded_withDefaultFormat {p : Parameter} {f : Formatter} :
    (p.withDefaultFormat f).isEncoded = p.isEncoded := by
  obtain ⟨value, own, wrapping⟩ := p
  rfl

theorem Parameter.isEncoded_element {p item : Parameter} {items : List Parameter}
    (hp : p.isEncoded = true) (hvalue : p.value = .list items) (hitem : item ∈ items) :
    (p.element item).isEncoded = true := by
  obtain ⟨hwrapping, hitems⟩ := isEncoded_iff.mp hp
  rw [hvalue] at hitems
  obtain ⟨hitemWrapping, hitemValue⟩ := isEncoded_iff.mp (Value.itemsEncoded_iff.mp hitems item hitem)
  refine isEncoded_iff.mpr ⟨?_, by rwa [value_element]⟩
  rcases p.wrapping_element item with heq | heq
  · exact heq.trans hitemWrapping
  · exact heq.trans hwrapping

/-- The formats that come along with what is inside a value are among some. -/
inductive Value.Carries (F : Formatter → Prop) : Value → Prop
  | simple {value : Value} (hlist : ∀ items, value ≠ .list items) (hrecord : ∀ fields, value ≠ .record fields) :
      Carries F value
  | list {items : List Parameter} (h : ∀ item ∈ items, Carries F item.value)
      (hformat : ∀ item ∈ items, ∀ f ∈ item.defaultFormat, F f) : Carries F (.list items)
  | record {fields : List Field} (h : ∀ field ∈ fields, Carries F field.value) : Carries F (.record fields)

structure Parameter.Carries (F : Formatter → Prop) (p : Parameter) : Prop where
  value : p.value.Carries F
  own : ∀ f ∈ p.defaultFormat, F f

namespace Parameter.Carries

variable {F : Formatter → Prop} {p : Parameter}

theorem plain {value : Value} (h : value.Carries F) : (Parameter.plain value).Carries F :=
  ⟨h, nofun⟩

theorem text {s : String} {wrapping : Wrapping} : (⟨.text s, none, wrapping⟩ : Parameter).Carries F :=
  ⟨.simple nofun nofun, nofun⟩

theorem withDefaultFormat (h : p.Carries F) {f : Formatter} (hf : F f) : (p.withDefaultFormat f).Carries F := by
  refine ⟨h.value, ?_⟩
  rintro _ ⟨⟩
  exact hf

theorem element (h : p.Carries F) {items : List Parameter} (hvalue : p.value = .list items) {item : Parameter}
    (hitem : item ∈ items) : (p.element item).Carries F := by
  have hlist := h.value
  rw [hvalue] at hlist
  cases hlist with
  | simple hlist => exact (hlist items rfl).elim
  | list hitems hformat =>
      refine ⟨by rw [p.value_element]; exact hitems item hitem, fun f hf => ?_⟩
      exact (mem_defaultFormat_element hf).elim (hformat item hitem f) (h.own f)

theorem follow {path : List String} {part : Value} (h : p.Carries F)
    (hpart : Evaluator.follow p.value path = .ok part) : (Parameter.plain part).Carries F := by
  refine .plain (Evaluator.follow_closed (fun _ => .simple nofun nofun) (fun _ => .simple nofun nofun)
    (fun fields h => ?_) (.simple nofun nofun) h.value hpart)
  cases h with
  | simple _ hrecord => exact (hrecord fields rfl).elim
  | record h => exact h

end Parameter.Carries

def ParameterSet.All (G : Parameter → Prop) (s : ParameterSet) : Prop :=
  ∀ entry ∈ s.entries, G entry.2

def Layers.All (G : Parameter → Prop) (layers : Layers) : Prop :=
  ∀ layer ∈ layers, layer.All G

section

variable {G : Parameter → Prop}

theorem ParameterSet.all_empty : ParameterSet.empty.All G := by
  rintro entry ⟨⟩

theorem ParameterSet.mem_put {key : String} {p : Parameter} {entries : List (String × Parameter)}
    {entry : String × Parameter} (h : entry ∈ put key p entries) : entry = (key, p) ∨ entry ∈ entries := by
  induction entries with
  | nil => exact .inl (List.mem_singleton.mp h)
  | cons first rest ih =>
      rw [put] at h
      split at h
      · rcases List.mem_cons.mp h with h | h
        · exact .inl h
        · exact .inr (List.mem_cons_of_mem _ h)
      · rcases List.mem_cons.mp h with h | h
        · exact .inr (List.mem_cons.mpr (.inl h))
        · exact (ih h).imp_right (List.mem_cons_of_mem _)

theorem ParameterSet.All.set {s : ParameterSet} {name : String} {p : Parameter} (h : s.All G) (hp : G p) :
    (s.set name p).All G := by
  intro entry hentry
  rcases mem_put hentry with rfl | hentry
  · exact hp
  · exact h entry hentry

theorem ParameterSet.All.get? {s : ParameterSet} {name : String} {p : Parameter} (h : s.All G)
    (hp : s.get? name = some p) : G p := by
  unfold ParameterSet.get? at hp
  obtain ⟨entries⟩ := s
  dsimp only at hp
  induction entries with
  | nil => cases hp
  | cons first rest ih =>
      rw [find?] at hp
      split at hp
      · cases hp
        exact h _ List.mem_cons_self
      · exact ih (fun entry hentry => h entry (List.mem_cons_of_mem _ hentry)) hp

theorem Layers.All.push {layers : Layers} (h : layers.All G) : layers.push.All G :=
  List.forall_mem_cons.mpr ⟨ParameterSet.all_empty, h⟩

theorem Layers.All.pop {layers : Layers} (h : layers.All G) : layers.pop.All G :=
  fun layer hlayer => h layer (List.mem_of_mem_tail hlayer)

theorem Layers.All.set {layers : Layers} {name : String} {p : Parameter} (h : layers.All G) (hp : G p) :
    (layers.set name p).All G := by
  cases layers with
  | nil => exact List.forall_mem_singleton.mpr (ParameterSet.all_empty.set hp)
  | cons top rest =>
      rw [Layers.All, List.forall_mem_cons] at h
      exact List.forall_mem_cons.mpr ⟨h.1.set hp, h.2⟩

theorem Layers.All.get? {layers : Layers} {name : String} {p : Parameter} (h : layers.All G)
    (hp : layers.get? name = some p) : G p := by
  obtain ⟨layer, hlayer, hget⟩ := List.exists_of_findSome?_eq_some hp
  exact (h layer hlayer).get? (Option.filter_eq_some_iff.mp hget).1

theorem Evaluator.all_passAll {layers : Layers} (h : layers.All G) (hnull : G (.plain .null))
    {arguments : List LookupArgument} (hliteral : ∀ s, .literal s ∈ arguments → G (.plain (.text s)))
    (hformat : ∀ name f, .parameter name (some f) ∈ arguments → ∀ p, G p → G (p.withDefaultFormat f))
    {parameters : ParameterSet} (hparameters : parameters.All G) (position : Nat) :
    (passAll layers parameters position arguments).All G := by
  induction arguments generalizing parameters position with
  | nil => exact hparameters
  | cons a rest ih =>
      refine ih (fun s hs => hliteral s (List.mem_cons_of_mem a hs))
        (fun name f hf => hformat name f (List.mem_cons_of_mem a hf)) ?_ (position + 1)
      have hfound (name : String) : G ((layers.get? name).getD (.plain .null)) := by
        cases hget : layers.get? name with
        | none => exact hnull
        | some p => exact h.get? hget
      cases a with
      | skipped => exact hparameters
      | literal s => exact hparameters.set (hliteral s List.mem_cons_self)
      | parameter name format =>
          cases format with
          | none => exact (hparameters.set (hfound name)).set (hfound name)
          | some f =>
              have hp := hformat name f List.mem_cons_self _ (hfound name)
              exact (hparameters.set hp).set hp

end

end Phrasebook
