import Phrasebook.Proofs.Evaluation.TagOutput
import Phrasebook.Proofs.Pattern.StopPlaces
import Phrasebook.Proofs.Text.Tags

namespace Phrasebook

open Text

theorem Position.IsAfter.offset_le {p : Position} {s : String} (h : p.IsAfter s) (t : String) :
    p.offset ≤ (s ++ t).utf8ByteSize := by
  rw [h.offset_eq, String.utf8ByteSize_append]
  exact Nat.le_add_right _ _

theorem Position.IsAfter.isValid {p : Position} {s : String} (h : p.IsAfter s) (t : String) :
    String.Pos.Raw.IsValid (s ++ t) ⟨p.offset⟩ := by
  rw [String.Pos.Raw.isValid_iff_exists_append]
  exact ⟨s, t, rfl, by rw [h.offset_eq]; rfl⟩

theorem Position.IsAfter.of_hides {p : Position} {s t : String} {k : Nat} (h : p.IsAfter t)
    (hides : Hides k s.toList t.toList) :
    p.offset = s.utf8ByteSize + 5 * k ∧ p.line = s.toList.count '\n' + 1 ∧ (k = 0 ↔ p.IsAfter s) := by
  have hoffset : p.offset = s.utf8ByteSize + 5 * k := by
    have hsize := hides.utf8Len_eq
    rw [String.utf8Len_toList, String.utf8Len_toList] at hsize
    rw [h.offset_eq, hsize]
  refine ⟨hoffset, by rw [h.line_eq, hides.count_eq], ?_, fun hs => ?_⟩
  · rintro rfl
    rwa [← String.toList_inj.mp hides.eq_of_zero]
  · have := hs.offset_eq
    omega

theorem Expression.read_eq_error_of_parse {pattern : String} {e : SyntaxError} (h : parse pattern = .error e) :
    read pattern = .error e := by
  unfold parse at h
  cases hread : read pattern with
  | ok expression =>
      rw [hread] at h
      cases h
  | error e' =>
      rw [hread] at h
      cases h
      rfl

namespace Dialect

variable {d : Dialect} {pattern : String} {e : SyntaxError}

theorem parse_eq_error_of_compile (h : d.compile pattern = .error (.syntaxError e)) :
    d.parse (d.source pattern) = .error e := by
  rcases Reader.bind_eq_error_iff.mp h with h | ⟨expression, -, h⟩
  · change (d.parse (d.source pattern)).mapError _ = _ at h
    cases hp : d.parse (d.source pattern) with
    | error e' =>
        rw [hp] at h
        cases h
        rfl
    | ok expression =>
        rw [hp] at h
        cases h
  · cases hb : d.bind expression with
    | error e' =>
        rw [hb] at h
        cases h
    | ok bound =>
        rw [hb] at h
        cases h

def failsAt (d : Dialect) (pattern : String) (p : Position) : Bool :=
  match d.compile pattern with
  | .error (.syntaxError e) => e.position = p
  | _ => false

theorem failsAt_eq_true_iff {p : Position} : d.failsAt pattern p = true ↔
    ∃ e, d.compile pattern = .error (.syntaxError e) ∧ e.position = p := by
  unfold failsAt
  split
  next e he => simp [he]
  next hother =>
    refine ⟨by rintro ⟨⟩, ?_⟩
    rintro ⟨e, he, -⟩
    exact (hother e he).elim

theorem exists_hides_source (htags : ∀ t ∈ d.transformer, t = .htmlTags) (pattern : String) :
    ∃ k, Hides k pattern.toList (d.source pattern).toList ∧ (d.transformer = none → k = 0) := by
  unfold source
  cases ht : d.transformer with
  | none => exact ⟨0, .refl _, fun _ => rfl⟩
  | some t =>
      obtain rfl := htags t ht
      obtain ⟨k, hides⟩ := exists_hides_hideTags pattern.toList
      refine ⟨k, ?_, by rintro ⟨⟩⟩
      change Hides k _ (String.ofList (hideTags pattern.toList)).toList
      rwa [String.toList_ofList]

/-- A syntax error is told for the text that was read: in the pattern it lies as many markers earlier as there
are brackets hidden before it, and at the very place told if there are none. -/
theorem compile_error_place (hparse : d.parse = Expression.parse)
    (htags : ∀ t ∈ d.transformer, t = .htmlTags) (h : d.compile pattern = .error (.syntaxError e)) :
    ∃ before after read rest hidden, pattern = before ++ after ∧ d.source pattern = read ++ rest ∧
      Hides hidden before.toList read.toList ∧ (d.transformer = none → hidden = 0) ∧
      e.position.IsAfter read ∧ e.position.offset = before.utf8ByteSize + 5 * hidden ∧
      e.position.line = before.toList.count '\n' + 1 ∧ (hidden = 0 ↔ e.position.IsAfter before) ∧
      (hidden = 0 → e.position.offset ≤ pattern.utf8ByteSize ∧
        String.Pos.Raw.IsValid pattern ⟨e.position.offset⟩) := by
  have hread := parse_eq_error_of_compile h
  rw [hparse] at hread
  obtain ⟨u, r, hsource, hposition, hmark⟩ := Expression.read_error_cut (Expression.read_eq_error_of_parse hread)
  obtain ⟨k, hides, hk⟩ := exists_hides_source htags pattern
  have hmarks : ∀ c ∈ Reader.marks, c ∉ markerChars := by decide
  rw [hsource] at hides
  obtain ⟨hidden, j, s₁, s₂, hsum, hs, hides, -⟩ := hides.split
    (hmark.imp (fun ⟨c, hc, hm⟩ => ⟨c, hc, hmarks c hm⟩) fun hm c hc => hmarks c (hm c hc))
  have hpattern : pattern = String.ofList s₁ ++ String.ofList s₂ := by
    rw [← String.ofList_append, ← hs, String.ofList_toList]
  have hafter : e.position.IsAfter (String.ofList u) := hposition ▸ Position.isAfter_after u
  have hides : Hides hidden (String.ofList s₁).toList (String.ofList u).toList := by
    rwa [String.toList_ofList, String.toList_ofList]
  obtain ⟨hoffset, hline, hiff⟩ := hafter.of_hides hides
  refine ⟨String.ofList s₁, String.ofList s₂, String.ofList u, String.ofList r, hidden, hpattern, ?_, hides, ?_,
    hafter, hoffset, hline, hiff, fun hzero => ?_⟩
  · rw [← String.ofList_append, ← hsource, String.ofList_toList]
  · intro hnone
    have := hk hnone
    omega
  · rw [hpattern]
    exact ⟨(hiff.mp hzero).offset_le _, (hiff.mp hzero).isValid _⟩

theorem compile_error_place_tagged :
    ∃ e, tagged.compile "é\n<b>#N\x7bon: \x7bM</b> \x7b" = .error (.syntaxError e) ∧ e.position = ⟨40, 2, 38⟩ ∧
      ∃ before after read rest hidden, "é\n<b>#N\x7bon: \x7bM</b> \x7b" = before ++ after ∧
        tagged.source "é\n<b>#N\x7bon: \x7bM</b> \x7b" = read ++ rest ∧
        Hides hidden before.toList read.toList ∧ e.position.IsAfter read ∧
        e.position.offset = before.utf8ByteSize + 5 * hidden ∧ e.position.line = before.toList.count '\n' + 1 ∧
        (hidden = 0 ↔ e.position.IsAfter before) := by
  have hcheck : tagged.failsAt "é\n<b>#N\x7bon: \x7bM</b> \x7b" ⟨40, 2, 38⟩ = true := by decide +kernel
  obtain ⟨e, he, hposition⟩ := failsAt_eq_true_iff.mp hcheck
  obtain ⟨before, after, read, rest, hidden, hpattern, hsource, hides, -, hafter, hoffset, hline, hiff, -⟩ :=
    compile_error_place rfl (by rintro t ⟨⟩; rfl) he
  exact ⟨e, he, hposition, before, after, read, rest, hidden, hpattern, hsource, hides, hafter, hoffset, hline, hiff⟩

/-- The place told lies behind the end of the pattern. -/
theorem compile_error_place_behind :
    ∃ e, tagged.compile "<b>\x7b" = .error (.syntaxError e) ∧ ¬ e.position.offset ≤ "<b>\x7b".utf8ByteSize := by
  have hcheck : tagged.failsAt "<b>\x7b" ⟨14, 1, 15⟩ = true := by decide +kernel
  obtain ⟨e, he, hposition⟩ := failsAt_eq_true_iff.mp hcheck
  refine ⟨e, he, ?_⟩
  rw [hposition]
  decide

end Dialect

end Phrasebook
