import DuckdbOdata.Foundation.TextSearch
import DuckdbOdata.Execution.WriteExecutor
import DuckdbOdata.Server.HttpRequest

/-! What a request target carries through the parser of requests: a word without
blanks arrives as it is, and percent-encoding is undone. -/

namespace DuckdbOdata.HttpTargets
open Text

/-- A word of a request line. -/
structure Word (text : Str) : Prop where
  some : text ≠ []
  solid : ∀ c ∈ text, isSpace c = false

theorem word_get : Word "GET".toList := ⟨List.cons_ne_nil _ _, every (by decide)⟩

theorem Word.last {text : Str} (word : Word text) : words text = [text] := by
  obtain ⟨some, solid⟩ := word
  induction text with
  | nil => exact absurd rfl some
  | cons c rest ih =>
    have first := solid c (by simp)
    cases rest with
    | nil => simp [words, first]
    | cons d rest =>
      have later := ih nofun fun e member => solid e (List.mem_cons_of_mem _ member)
      rw [words, later]
      simp [first, solid d (by simp)]

theorem Word.before {text : Str} (word : Word text) (rest : Str) : words (text ++ ' ' :: rest) = text :: words rest := by
  obtain ⟨some, solid⟩ := word
  have blank : words (' ' :: rest) = words rest := by
    rw [words.eq_def]
    exact if_pos (by decide)
  induction text with
  | nil => exact absurd rfl some
  | cons c text ih =>
    have first := solid c (by simp)
    cases text with
    | nil =>
      rw [List.singleton_append, words.eq_def]
      simp only [first, Bool.false_eq_true, ite_false]
      rw [if_pos (by decide), blank]
    | cons d text =>
      have later := ih nofun fun e member => solid e (List.mem_cons_of_mem _ member)
      rw [List.cons_append] at later ⊢
      rw [List.cons_append, words, later]
      simp [first, solid d (by simp)]

/-- The text has no line end. -/
def OneLine (text : Str) : Prop := ¬ ['\r', '\n'] <:+: text

theorem OneLine.cons {c : Char} {text : Str} (single : OneLine (c :: text)) :
    (c = '\r' → text.head? ≠ some '\n') ∧ OneLine text := by
  constructor
  · intro same follows
    subst same
    cases text with
    | nil => cases follows
    | cons d rest =>
      cases Option.some.inj follows
      exact single ⟨[], rest, rfl⟩
  · intro inside
    exact single (inside.trans (List.suffix_cons c text).isInfix)

/-- A line end ends the line, whatever its last byte is. -/
theorem crlfLines_oneLine {line : Str} (single : OneLine line) (rest : Str) :
    crlfLines (line ++ '\r' :: '\n' :: rest) = line :: crlfLines rest := by
  induction line with
  | nil => rfl
  | cons c line ih =>
    obtain ⟨apart, later⟩ := single.cons
    have other : ∀ after, c = '\r' → line ++ '\r' :: '\n' :: rest = '\n' :: after → False := by
      intro after same follows
      cases line with
      | nil => cases follows
      | cons d line =>
        cases follows
        exact apart same rfl
    rw [List.cons_append, crlfLines.eq_3 c _ other, ih later]

theorem crlfLines_line (line rest : Str) (plain : '\r' ∉ line) : crlfLines (line ++ '\r' :: '\n' :: rest) = line :: crlfLines rest :=
  crlfLines_oneLine (fun inside => plain (inside.subset List.mem_cons_self)) rest

/-- The target of a request decides its path and its query only. -/
theorem requestOf_kept (method target : Str) (headers : List (Str × Str)) :
    (requestOf method target headers).method = method ∧ (requestOf method target headers).headers = headers ∧
      (requestOf method target headers).body = [] := by
  unfold requestOf
  split <;> exact ⟨rfl, rfl, rfl⟩

/-- The head of a request for `target`. -/
def requestHead (method target rest : Str) : Str :=
  method ++ ' ' :: (target ++ " HTTP/1.1\r\n".toList ++ rest)

theorem parseHttpRequest_target {method target : Str} (asks : Word method) (names : Word target) (rest : Str) :
    parseHttpRequest (requestHead method target rest) = (parseHeaders (crlfLines rest)).map (requestOf method target) := by
  have version : Word "HTTP/1.1".toList := ⟨by decide, every (by decide)⟩
  have plain : ∀ {text : Str}, Word text → '\r' ∉ text := fun word member => absurd (word.solid _ member) (by decide)
  have line : crlfLines (requestHead method target rest) =
      (method ++ ' ' :: (target ++ ' ' :: "HTTP/1.1".toList)) :: crlfLines rest := by
    rw [← crlfLines_line _ rest]
    · simp [requestHead]
    · simp [plain asks, plain names]
  unfold parseHttpRequest
  simp only [line, asks.before, names.before, version.last]
  rfl

theorem urlDecode_plain {c : Char} (percent : c ≠ '%') (plus : c ≠ '+') (rest : Str) : urlDecode (c :: rest) = c :: urlDecode rest := by
  rw [urlDecode.eq_3 c rest (by intro _ _ _ same; exact absurd same percent), if_neg plus]

/-- Decoding does not lengthen a text; if it keeps the length, only `+` has changed. -/
theorem urlDecode_length (text : Str) :
    (urlDecode text).length ≤ text.length ∧
      ((urlDecode text).length = text.length → urlDecode text = text.map fun c => if c = '+' then ' ' else c) := by
  induction text using urlDecode.induct with
  | case1 => exact ⟨le_rfl, fun _ => rfl⟩
  | case2 high low rest hi lo one two ih =>
    have shape : urlDecode ('%' :: high :: low :: rest) = Char.ofNat (hi * 16 + lo) :: urlDecode rest := by
      rw [urlDecode]
      simp only [one, two]
    rw [shape]
    simp only [List.length_cons]
    exact ⟨by omega, fun same => absurd ih.1 (by omega)⟩
  | case3 high low rest other ih =>
    have shape : urlDecode ('%' :: high :: low :: rest) = '%' :: urlDecode (high :: low :: rest) := by
      rw [urlDecode]
      split
      next one two => exact absurd two (other _ _ one)
      next => rfl
    rw [shape, List.length_cons, List.length_cons, List.map_cons, if_neg (by decide)]
    exact ⟨Nat.succ_le_succ ih.1, fun same => congrArg _ (ih.2 (Nat.succ.inj same))⟩
  | case4 c rest other ih =>
    rw [urlDecode.eq_3 c rest other, List.length_cons, List.length_cons, List.map_cons]
    exact ⟨Nat.succ_le_succ ih.1, fun same => congrArg _ (ih.2 (Nat.succ.inj same))⟩

/-- Text that means itself in a path. -/
def Unescaped (text : Str) : Prop := ∀ c ∈ text, c ≠ '%' ∧ c ≠ '+'

theorem urlDecode_unescaped {text : Str} (unescaped : Unescaped text) (rest : Str) :
    urlDecode (text ++ rest) = text ++ urlDecode rest := by
  induction text with
  | nil => rfl
  | cons c text ih =>
    obtain ⟨percent, plus⟩ := unescaped c (by simp)
    rw [List.cons_append, urlDecode_plain percent plus, ih fun d member => unescaped d (List.mem_cons_of_mem _ member),
      List.cons_append]

/-- A byte string. -/
def Bytes (text : Str) : Prop := ∀ c ∈ text, c.toNat < 256

instance (text : Str) : Decidable (Bytes text) := List.decidableBAll _ text

/-- Characters of a class that leaves out the six blanks. -/
theorem solid_of (accept : Char → Bool) {c : Char} (accepted : accept c = true)
    (rejects : ∀ blank ∈ [' ', '\t', '\n', '\r', Char.ofNat 11, Char.ofNat 12], accept blank = false) : isSpace c = false := by
  by_contra space
  simp only [isSpace, Bool.not_eq_false, Bool.or_eq_true, beq_iff_eq, or_assoc] at space
  have rejected := rejects c (by simpa using space)
  rw [accepted] at rejected
  cases rejected

end DuckdbOdata.HttpTargets
