import Mathlib.Data.List.Basic

/-! Byte strings and the two text conventions every layer of a server meets:
cutting at a separator, and quoting by doubling the quote character. -/

namespace Text

/-- A byte string. Each character stands for one byte (code below 256). -/
abbrev Str := List Char

instance : LawfulBEq Str := inferInstance

/-- The text before and after the first `sep`, if there is one. -/
def cut (sep : Char) : Str → Option (Str × Str)
  | [] => none
  | c :: rest => if c = sep then some ([], rest) else (cut sep rest).map fun (before, after) => (c :: before, after)

/-- The fields between separators: `n` separators give `n + 1` fields. -/
def fields (sep : Char) : Str → List Str
  | [] => [[]]
  | c :: rest =>
    if c = sep then [] :: fields sep rest
    else match fields sep rest with
      | [] => [[c]]
      | first :: others => (c :: first) :: others

def double (quote : Char) (text : Str) : Str :=
  text.flatMap fun c => if c = quote then [quote, quote] else [c]

/-- `text` between two quotes, every quote inside it doubled. -/
def enquote (quote : Char) (text : Str) : Str := quote :: (double quote text ++ [quote])

/-- Read up to the closing quote, undoing the doubling. The opening quote has
been consumed. `none` means that the text is never closed. -/
def readQuoted (quote : Char) : Str → Option (Str × Str)
  | [] => none
  | [c] => if c = quote then some ([], []) else none
  | c :: d :: rest =>
    if c = quote then
      if d = quote then (readQuoted quote rest).map fun (value, after) => (quote :: value, after)
      else some ([], d :: rest)
    else (readQuoted quote (d :: rest)).map fun (value, after) => (c :: value, after)

@[simp] theorem double_nil (quote : Char) : double quote [] = [] := rfl

theorem double_cons (quote c : Char) (text : Str) :
    double quote (c :: text) = (if c = quote then [quote, quote] else [c]) ++ double quote text := by
  simp [double]

/-- What follows a closing quote must not look like a doubled one. -/
def Closed (quote : Char) (rest : Str) : Prop := rest.head? ≠ some quote

theorem readQuoted_quote (quote : Char) (rest : Str) (closed : Closed quote rest) :
    readQuoted quote (quote :: rest) = some ([], rest) := by
  cases rest with
  | nil => simp [readQuoted]
  | cons d rest =>
    have other : d ≠ quote := by simpa [Closed] using closed
    simp [readQuoted, other]

theorem readQuoted_cons (quote c : Char) (rest : Str) (other : c ≠ quote) :
    readQuoted quote (c :: rest) = (readQuoted quote rest).map fun (value, after) => (c :: value, after) := by
  cases rest with
  | nil => simp [readQuoted, other]
  | cons d rest => simp [readQuoted, other]

/-- Reading undoes quoting, whatever the text contains. -/
theorem readQuoted_double (quote : Char) (text rest : Str) (closed : Closed quote rest) :
    readQuoted quote (double quote text ++ quote :: rest) = some (text, rest) := by
  induction text with
  | nil => exact readQuoted_quote quote rest closed
  | cons c text ih =>
    rw [double_cons]
    by_cases same : c = quote
    · subst c
      simp [readQuoted, ih]
    · simp [same, readQuoted_cons, ih]

/-- What was read is the doubled value and the closing quote. -/
theorem readQuoted_split (quote : Char) (text : Str) {value rest : Str}
    (read : readQuoted quote text = some (value, rest)) :
    text = double quote value ++ quote :: rest ∧ Closed quote rest := by
  induction text using readQuoted.induct quote generalizing value rest with
  | case1 => simp [readQuoted] at read
  | case2 =>
    simp only [readQuoted, ite_true, Option.some.injEq, Prod.mk.injEq] at read
    obtain ⟨rfl, rfl⟩ := read
    exact ⟨rfl, by simp [Closed]⟩
  | case3 c other => simp [readQuoted, other] at read
  | case4 tail ih =>
    simp only [readQuoted, ite_true, Option.map_eq_some_iff, Prod.exists] at read
    obtain ⟨inner, after, found, same⟩ := read
    cases same
    obtain ⟨rfl, closed⟩ := ih found
    exact ⟨by simp [double_cons], closed⟩
  | case5 d tail other =>
    simp only [readQuoted, ite_true, other, ite_false, Option.some.injEq, Prod.mk.injEq] at read
    obtain ⟨rfl, rfl⟩ := read
    exact ⟨rfl, by simpa [Closed] using other⟩
  | case6 c d tail other ih =>
    simp only [readQuoted, other, ite_false, Option.map_eq_some_iff, Prod.exists] at read
    obtain ⟨inner, after, found, same⟩ := read
    cases same
    obtain ⟨split, closed⟩ := ih found
    exact ⟨by rw [split, double_cons, if_neg other]; rfl, closed⟩

/-- Reading consumes at least the closing quote. -/
theorem readQuoted_shorter (quote : Char) (text : Str) {value rest : Str}
    (read : readQuoted quote text = some (value, rest)) : rest.length < text.length := by
  obtain ⟨rfl, -⟩ := readQuoted_split quote text read
  simp only [List.length_append, List.length_cons]
  omega

/-- A property of every item, checked item by item. -/
theorem every {p : α → Prop} [DecidablePred p] {items : List α} (all : items.all (fun x => decide (p x)) = true) :
    ∀ x ∈ items, p x := fun x member => of_decide_eq_true (List.all_eq_true.mp all x member)

theorem mapM_eq_some_map {items : List α} {f : α → Option β} {g : α → β} :
    items.mapM f = some (items.map g) ↔ ∀ item ∈ items, f item = some (g item) := by
  induction items with
  | nil => simp
  | cons item others ih =>
    rw [List.mapM_cons, List.map_cons]
    constructor
    · intro same
      obtain ⟨value, found, more⟩ := Option.bind_eq_some_iff.mp same
      obtain ⟨values, rest, equal⟩ := Option.bind_eq_some_iff.mp more
      simp only [Option.pure_def, Option.some.injEq, List.cons.injEq] at equal
      obtain ⟨rfl, rfl⟩ := equal
      intro other member
      rcases List.mem_cons.mp member with rfl | member
      · exact found
      · exact ih.mp rest other member
    · intro all
      rw [all item (by simp), ih.mpr fun other member => all other (List.mem_cons_of_mem _ member)]
      rfl

theorem mem_intercalate {between : List α} {items : List (List α)} {x : α} (member : x ∈ between.intercalate items) :
    x ∈ between ∨ ∃ item ∈ items, x ∈ item := by
  induction items with
  | nil => cases member
  | cons item others ih =>
    cases others with
    | nil => exact .inr ⟨item, by simp, by simpa using member⟩
    | cons next others =>
      simp only [List.intercalate_cons_cons, List.mem_append] at member
      rcases member with (inItem | inBetween) | later
      · exact .inr ⟨item, by simp, inItem⟩
      · exact .inl inBetween
      · rcases ih later with inBetween | ⟨other, listed, inside⟩
        · exact .inl inBetween
        · exact .inr ⟨other, List.mem_cons_of_mem _ listed, inside⟩

theorem intercalate_concat (between : List α) (items : List (List α)) (item : List α) :
    between.intercalate (items ++ [item]) = between.intercalate items ++ (if items = [] then [] else between) ++ item := by
  induction items with
  | nil => simp
  | cons first others ih =>
    cases others with
    | nil => simp
    | cons next others => simpa using ih

theorem map_intercalate (f : α → β) (between : List α) (items : List (List α)) :
    (between.intercalate items).map f = (between.map f).intercalate (items.map (List.map f)) := by
  induction items with
  | nil => rfl
  | cons item others ih =>
    cases others with
    | nil => simp
    | cons next others => simpa using ih

theorem fields_splitOn (sep : Char) (text : Str) : fields sep text = text.splitOn sep := by
  induction text with
  | nil => rfl
  | cons c rest ih =>
    rw [fields, List.splitOn_cons_eq_if_modifyHead, ih]
    by_cases same : c = sep
    · rw [if_pos same, if_pos (beq_iff_eq.mpr same)]
    · rw [if_neg same, if_neg (mt beq_iff_eq.mp same)]
      cases shape : rest.splitOn sep with
      | nil => exact absurd shape (List.splitOn_ne_nil sep rest)
      | cons first others => rfl

theorem fields_ne_nil (sep : Char) (text : Str) : fields sep text ≠ [] := by
  rw [fields_splitOn]
  exact List.splitOn_ne_nil sep text

/-- The fields with their separators are the text. -/
theorem intercalate_fields (sep : Char) (text : Str) : [sep].intercalate (fields sep text) = text := by
  rw [fields_splitOn]
  exact List.intercalate_splitOn sep

theorem fields_intercalate {sep : Char} {items : List Str} (free : ∀ item ∈ items, sep ∉ item) (listed : items ≠ []) :
    fields sep ([sep].intercalate items) = items := by
  rw [fields_splitOn]
  exact List.splitOn_intercalate sep free listed

theorem fields_append (sep : Char) (first last : Str) : fields sep (first ++ sep :: last) = fields sep first ++ fields sep last := by
  induction first with
  | nil => simp [fields]
  | cons c first ih =>
    rw [List.cons_append, fields, fields, ih]
    split
    next => rfl
    next =>
      cases shape : fields sep first with
      | nil => exact absurd shape (fields_ne_nil sep first)
      | cons field others => rfl

/-- No field contains the separator. -/
theorem fields_free {sep : Char} {text item : Str} (member : item ∈ fields sep text) : sep ∉ item := by
  induction text generalizing item with
  | nil =>
    cases List.mem_singleton.mp member
    exact List.not_mem_nil
  | cons c rest ih =>
    rw [fields] at member
    split at member
    next =>
      rcases List.mem_cons.mp member with rfl | member
      · exact List.not_mem_nil
      · exact ih member
    next other =>
      cases shape : fields sep rest with
      | nil => exact absurd shape (fields_ne_nil sep rest)
      | cons first others =>
        rw [shape] at member ih
        rcases List.mem_cons.mp member with rfl | member
        · exact List.not_mem_cons_of_ne_of_not_mem (Ne.symm other) (ih List.mem_cons_self)
        · exact ih (List.mem_cons_of_mem _ member)

theorem intercalate_append {between : List α} {first last : List (List α)} (front : first ≠ []) (back : last ≠ []) :
    between.intercalate (first ++ last) = between.intercalate first ++ between ++ between.intercalate last := by
  induction first with
  | nil => exact absurd rfl front
  | cons item first ih =>
    cases first with
    | nil =>
      obtain ⟨next, last, rfl⟩ := List.exists_cons_of_ne_nil back
      simp
    | cons next first =>
      have later := ih (List.cons_ne_nil next first)
      simp only [List.cons_append] at later ⊢
      rw [List.intercalate_cons_cons, later, List.intercalate_cons_cons]
      simp

/-- Of one path, a longer end gives a longer text. -/
theorem intercalate_suffix {between : List α} (apart : between ≠ []) {first last path : List (List α)}
    (one : first <:+ path) (other : last <:+ path) (front : first ≠ []) (back : last ≠ [])
    (same : (between.intercalate first).length = (between.intercalate last).length) : first = last := by
  have shorter : ∀ {some more : List (List α)}, some ≠ [] → some <:+ more →
      (between.intercalate some).length = (between.intercalate more).length → some = more := by
    rintro short long shown ⟨extra, rfl⟩ equal
    cases extra with
    | nil => rfl
    | cons item extra =>
      rw [intercalate_append (List.cons_ne_nil item extra) shown] at equal
      have positive := List.length_pos_iff.mpr apart
      simp only [List.length_append] at equal
      omega
  rcases Nat.le_total first.length last.length with fewer | longer
  · exact shorter front (List.suffix_of_suffix_length_le one other fewer) same
  · exact (shorter back (List.suffix_of_suffix_length_le other one longer) same.symm).symm

def readNumber (digits : Str) : Option Nat :=
  if digits ≠ [] ∧ digits.all Char.isDigit then some (Nat.ofDigitChars 10 digits 0) else none

theorem readNumber_digits (n : Nat) : readNumber (Nat.toDigits 10 n) = some n := by
  have digits : (Nat.toDigits 10 n).all Char.isDigit = true := by
    rw [List.all_eq_true]
    intro c member
    exact Nat.isDigit_of_mem_toDigits (by decide) (by decide) member
  unfold readNumber
  rw [if_pos ⟨Nat.toDigits_ne_nil, digits⟩, Nat.ofDigitChars_toDigits (by decide) (by decide)]

theorem digits_plain (n : Nat) : ∀ c ∈ Nat.toDigits 10 n, c.isDigit = true :=
  fun _ member => Nat.isDigit_of_mem_toDigits (by decide) (by decide) member

end Text
