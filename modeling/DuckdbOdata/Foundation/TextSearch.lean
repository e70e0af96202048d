import DuckdbOdata.Foundation.Text
import Mathlib.Data.List.TakeWhile

/-! Searching a text for a marker, when the text arrives in parts. -/

namespace Text

/-- The text before and after the first occurrence of `marker`. -/
def cutText (marker : Str) : Str → Option (Str × Str)
  | [] => if marker = [] then some ([], []) else none
  | c :: rest =>
    if marker.isPrefixOf (c :: rest) then some ([], (c :: rest).drop marker.length)
    else (cutText marker rest).map fun (before, after) => (c :: before, after)

theorem cutText_cons (marker : Str) (c : Char) (rest : Str) (other : ¬ marker <+: c :: rest) :
    cutText marker (c :: rest) = (cutText marker rest).map fun (before, after) => (c :: before, after) := by
  rw [cutText, if_neg (by simpa using other)]

theorem cutText_prefix (marker rest : Str) : cutText marker (marker ++ rest) = some ([], rest) := by
  cases marker with
  | nil => cases rest <;> simp [cutText]
  | cons c marker => simp [cutText]

theorem cutText_join {marker text before after : Str} (found : cutText marker text = some (before, after)) :
    text = before ++ marker ++ after := by
  induction text generalizing before with
  | nil =>
    rw [cutText] at found
    split at found
    next empty => cases found; simp [empty]
    next => cases found
  | cons c rest ih =>
    by_cases starts : marker <+: c :: rest
    · obtain ⟨more, whole⟩ := starts
      rw [← whole, cutText_prefix] at found
      cases found
      exact whole.symm
    · rw [cutText_cons marker c rest starts] at found
      obtain ⟨⟨first, last⟩, inner, same⟩ := Option.map_eq_some_iff.mp found
      cases same
      rw [ih inner]
      simp

/-- More text at the end does not change the first occurrence. -/
theorem cutText_append {marker text before after : Str} (found : cutText marker text = some (before, after)) (more : Str) :
    cutText marker (text ++ more) = some (before, after ++ more) := by
  induction text generalizing before with
  | nil =>
    rw [cutText] at found
    split at found
    next empty => cases found; simpa [empty] using cutText_prefix [] more
    next => cases found
  | cons c rest ih =>
    by_cases starts : marker <+: c :: rest
    · obtain ⟨tail, whole⟩ := starts
      rw [← whole, cutText_prefix] at found
      cases found
      rw [← whole, List.append_assoc, cutText_prefix]
    · rw [cutText_cons marker c rest starts] at found
      obtain ⟨⟨first, last⟩, inner, same⟩ := Option.map_eq_some_iff.mp found
      cases same
      have fits : marker.length ≤ (c :: rest).length := by
        rw [cutText_join inner]
        simp
        omega
      have later : ¬ marker <+: c :: (rest ++ more) := by
        intro early
        exact starts (List.prefix_of_prefix_length_le early (List.prefix_append (c :: rest) more) fits)
      rw [List.cons_append, cutText_cons marker c _ later, ih inner]
      rfl

/-- The first occurrence is found as soon as it has arrived. -/
theorem cutText_arrived {marker text more before after : Str} (found : cutText marker (text ++ more) = some (before, after))
    (arrived : before.length + marker.length ≤ text.length) :
    ∃ rest, cutText marker text = some (before, rest) ∧ after = rest ++ more := by
  induction text generalizing before with
  | nil =>
    have empty : before = [] ∧ marker = [] := by
      simpa using arrived
    obtain ⟨rfl, rfl⟩ := empty
    have whole := cutText_join found
    exact ⟨[], by simp [cutText], by simpa using whole.symm⟩
  | cons c rest ih =>
    by_cases starts : marker <+: c :: (rest ++ more)
    · obtain ⟨tail, whole⟩ := starts
      rw [List.cons_append, ← whole, cutText_prefix] at found
      cases found
      have early : marker <+: c :: rest := by
        refine List.prefix_of_prefix_length_le ⟨_, whole⟩ (List.prefix_append (c :: rest) more) ?_
        simpa using arrived
      obtain ⟨inner, here⟩ := early
      refine ⟨inner, by rw [← here, cutText_prefix], ?_⟩
      rw [← List.cons_append, ← here, List.append_assoc] at whole
      exact List.append_cancel_left whole
    · rw [List.cons_append, cutText_cons marker c _ starts] at found
      obtain ⟨⟨first, last⟩, inner, same⟩ := Option.map_eq_some_iff.mp found
      cases same
      obtain ⟨tail, known, joined⟩ := ih inner (by simpa [Nat.add_right_comm] using arrived)
      have later : ¬ marker <+: c :: rest := fun early => starts (early.trans (List.prefix_append (c :: rest) more))
      exact ⟨tail, by rw [cutText_cons marker c rest later, known]; rfl, joined⟩

/-- And not before. -/
theorem cutText_pending {marker text more before after : Str} (found : cutText marker (text ++ more) = some (before, after))
    (pending : text.length < before.length + marker.length) : cutText marker text = none := by
  by_contra some
  obtain ⟨⟨other, rest⟩, known⟩ := Option.ne_none_iff_exists'.mp some
  have again := cutText_append known more
  rw [found] at again
  cases again
  have whole := congrArg List.length (cutText_join known)
  simp only [List.length_append] at whole
  omega

/-- No marker begins in text without its first character. -/
theorem cutText_skip {c : Char} {marker text : Str} (plain : c ∉ text) (rest : Str) :
    cutText (c :: marker) (text ++ rest) =
      (cutText (c :: marker) rest).map fun (before, after) => (text ++ before, after) := by
  induction text with
  | nil => exact Option.map_id'.symm
  | cons d text ih =>
    simp only [List.mem_cons, not_or] at plain
    have later : ¬ c :: marker <+: d :: (text ++ rest) := by
      rintro ⟨tail, whole⟩
      exact plain.1 (List.cons.inj whole).1
    rw [List.cons_append, cutText_cons _ d _ later, ih plain.2, Option.map_map]
    rfl

/-- Text without the marker's first character has no marker. -/
theorem cutText_plain {c : Char} {marker text : Str} (plain : c ∉ text) (rest : Str) :
    cutText (c :: marker) (text ++ c :: marker ++ rest) = some (text, rest) := by
  rw [List.append_assoc, cutText_skip plain, cutText_prefix, Option.map_some]
  dsimp only
  rw [List.append_nil]

/-- Nothing from the first marker on is taken. -/
theorem takeWhile_marker (marker : Char) (text rest : Str) :
    (text ++ marker :: rest).takeWhile (· ≠ marker) = text.takeWhile (· ≠ marker) := by
  have stops : (marker :: rest).takeWhile (· ≠ marker) = [] := List.takeWhile_cons_of_neg (by simp)
  rw [List.takeWhile_append, stops, List.append_nil]
  split
  next all => rw [(List.takeWhile_prefix _).eq_of_length all]
  next => rfl

theorem cut_none {sep : Char} {text : Str} (missing : sep ∉ text) : cut sep text = none := by
  induction text with
  | nil => rfl
  | cons c text ih =>
    simp only [List.mem_cons, not_or] at missing
    rw [cut, if_neg (fun same => missing.1 same.symm), ih missing.2]
    rfl

theorem cut_missing {sep : Char} {text : Str} (none : cut sep text = none) : sep ∉ text := by
  induction text with
  | nil => exact List.not_mem_nil
  | cons c rest ih =>
    rw [cut] at none
    split at none
    next => cases none
    next other =>
      rw [List.mem_cons, not_or]
      exact ⟨fun same => other same.symm, ih (Option.map_eq_none_iff.mp none)⟩

theorem cut_first {sep : Char} {before : Str} (free : sep ∉ before) (after : Str) :
    cut sep (before ++ sep :: after) = some (before, after) := by
  induction before with
  | nil => simp [cut]
  | cons c before ih =>
    simp only [List.mem_cons, not_or] at free
    rw [List.cons_append, cut, if_neg (fun same => free.1 same.symm), ih free.2]
    rfl

theorem cut_join {sep : Char} {text before after : Str} (found : cut sep text = some (before, after)) :
    text = before ++ sep :: after ∧ sep ∉ before := by
  induction text generalizing before with
  | nil => cases found
  | cons c text ih =>
    rw [cut] at found
    split at found
    next same =>
      cases found
      exact ⟨by rw [same]; rfl, List.not_mem_nil⟩
    next other =>
      obtain ⟨⟨inner, rest⟩, cuts, same⟩ := Option.map_eq_some_iff.mp found
      cases same
      obtain ⟨rfl, free⟩ := ih cuts
      refine ⟨rfl, ?_⟩
      simp only [List.mem_cons, not_or]
      exact ⟨fun equal => other equal.symm, free⟩

/-- A text with a separator is cut where the taking up to it stops. -/
theorem cut_taken (sep : Char) (text rest : Str) :
    ∃ after, cut sep (text ++ sep :: rest) = some (text.takeWhile (· ≠ sep), after) := by
  cases found : cut sep (text ++ sep :: rest) with
  | none => exact absurd (List.mem_append_right _ List.mem_cons_self) (cut_missing found)
  | some parts =>
    obtain ⟨before, after⟩ := parts
    obtain ⟨whole, free⟩ := cut_join found
    have all : ∀ c ∈ before, decide (c ≠ sep) = true := by
      intro c member
      apply decide_eq_true
      rintro rfl
      exact free member
    have taken := takeWhile_marker sep text rest
    rw [whole, takeWhile_marker, List.takeWhile_eq_self_iff.mpr all] at taken
    exact ⟨after, by rw [taken]⟩

/-- Where a text is cut. -/
theorem cut_findIdx (sep : Char) (text : Str) :
    cut sep text = (text.findIdx? (· = sep)).map fun i => (text.take i, text.drop (i + 1)) := by
  induction text with
  | nil => rfl
  | cons c rest ih =>
    rw [cut, List.findIdx?_cons, ih]
    by_cases same : c = sep
    · simp [same]
    · simp [same, Function.comp_def]

theorem fields_cut (sep : Char) (text : Str) :
    fields sep text = match cut sep text with
      | none => [text]
      | some (first, rest) => first :: fields sep rest := by
  induction text with
  | nil => rfl
  | cons c rest ih =>
    rw [fields, cut]
    split
    next => rfl
    next =>
      rw [ih]
      cases cut sep rest <;> rfl

end Text
