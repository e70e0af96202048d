import DuckdbOdata.Proofs.RequestHeads
import DuckdbOdata.Server.Routing

/-! Paths of requests beside percent-decoding as RFC 3986 has it, where a plus
sign means itself. The decoder is the one for query strings: it reads a plus sign
as a blank. -/

namespace DuckdbOdata.PathDecoding
open Text HttpTargets RequestHeads

/-- Every `%` with two hex digits is the byte; every other byte is itself. -/
def percentDecode : Str → Str
  | [] => []
  | '%' :: high :: low :: rest =>
    match hexValue high, hexValue low with
    | some hi, some lo => Char.ofNat (hi * 16 + lo) :: percentDecode rest
    | _, _ => '%' :: percentDecode (high :: low :: rest)
  | c :: rest => c :: percentDecode rest

/-- `Encodes text encoded`: each byte of the text is written as itself or as an
escape with two hex digits. -/
inductive Encodes : Str → Str → Prop
  | nil : Encodes [] []
  | literal {c text encoded} : c ≠ '%' → c ≠ '?' → Encodes text encoded → Encodes (c :: text) (c :: encoded)
  | escape {high low hi lo text encoded} : hexValue high = some hi → hexValue low = some lo → Encodes text encoded →
      Encodes (Char.ofNat (hi * 16 + lo) :: text) ('%' :: high :: low :: encoded)

theorem percentDecode_plain {c : Char} (other : c ≠ '%') (rest : Str) : percentDecode (c :: rest) = c :: percentDecode rest := by
  rw [percentDecode.eq_3 c rest]
  intro _ _ _ same
  exact absurd same other

private theorem hexValue_plain {c : Char} {value : Nat} (digit : hexValue c = some value) : c ≠ '+' ∧ c ≠ '?' := by
  constructor <;> rintro rfl <;> cases digit

/-- Decoding undoes every encoding. -/
theorem Encodes.decode {text encoded : Str} (encodes : Encodes text encoded) : percentDecode encoded = text ∧ '?' ∉ encoded := by
  induction encodes with
  | nil => exact ⟨rfl, List.not_mem_nil⟩
  | literal percent mark _ ih =>
    refine ⟨by rw [percentDecode_plain percent, ih.1], ?_⟩
    simp only [List.mem_cons, not_or]
    exact ⟨mark.symm, ih.2⟩
  | escape first last _ ih =>
    refine ⟨by rw [percentDecode, first, last, ← ih.1], ?_⟩
    simp only [List.mem_cons, not_or]
    exact ⟨by decide, (hexValue_plain first).2.symm, (hexValue_plain last).2.symm, ih.2⟩

/-- The decoder does the same exactly when there is no plus sign. -/
theorem urlDecode_iff (text : Str) : urlDecode text = percentDecode text ↔ '+' ∉ text := by
  induction text using urlDecode.induct with
  | case1 => exact iff_of_true rfl List.not_mem_nil
  | case2 high low rest hi lo first last ih =>
    have one := (hexValue_plain first).1.symm
    have other := (hexValue_plain last).1.symm
    rw [urlDecode, percentDecode, first, last]
    simp [ih, one, other]
  | case3 high low rest unread ih =>
    have escape : urlDecode ('%' :: high :: low :: rest) = '%' :: urlDecode (high :: low :: rest) := by
      rw [urlDecode]
      split
      next hi lo first last => exact absurd last (unread hi lo first)
      next => rfl
    have plain : percentDecode ('%' :: high :: low :: rest) = '%' :: percentDecode (high :: low :: rest) := by
      rw [percentDecode]
      split
      next hi lo first last => exact absurd last (unread hi lo first)
      next => rfl
    rw [escape, plain]
    simp only [List.cons.injEq, true_and, ih, List.mem_cons]
    simp
  | case4 c rest other ih =>
    rw [urlDecode.eq_3 c rest other, percentDecode.eq_3 c rest other]
    by_cases plus : c = '+'
    · subst plus
      simp
    · simp [plus, Ne.symm plus, ih]

/-- The part of a target before the query. -/
def pathPart (target : Str) : Str := target.takeWhile (· ≠ '?')

/-- The path is the decoded one, and every encoding of a text is routed as the
text itself. -/
structure Decoded (target : Str) (request : HttpRequest) : Prop where
  path : request.path = percentDecode (pathPart target)
  routes : ∀ text, Encodes text (pathPart target) → ∀ state, parseRoute state request.path = parseRoute state text

/-- A path is decoded as RFC 3986 has it exactly if there is no plus sign in it. -/
theorem decoded_iff {method target rest : Str} {request : HttpRequest} (asks : Word method) (names : Word target)
    (parsed : parseHttpRequest (requestHead method target rest) = some request) :
    Decoded target request ↔ '+' ∉ pathPart target := by
  rw [parseHttpRequest_target asks names] at parsed
  obtain ⟨headers, -, rfl⟩ := Option.map_eq_some_iff.mp parsed
  have path := (requestOf_target method target headers).1
  constructor
  · intro decoded
    apply (urlDecode_iff (pathPart target)).mp
    rw [← decoded.path]
    exact path.symm
  · intro free
    have same : (requestOf method target headers).path = percentDecode (pathPart target) :=
      path.trans ((urlDecode_iff (pathPart target)).mpr free)
    refine ⟨same, ?_⟩
    intro text encodes state
    rw [same, encodes.decode.1]

theorem decoded_iff_quote : Decoded "/odata/people('a%2Bb')?x".toList
    { method := "GET".toList, path := "/odata/people('a+b')".toList, rawQuery := ['x'], query := [(['x'], [])] } := by
  have names : Word "/odata/people('a%2Bb')?x".toList := ⟨by decide, every (by decide)⟩
  have parsed : parseHttpRequest (requestHead "GET".toList "/odata/people('a%2Bb')?x".toList "\r\n".toList) = some
      { method := "GET".toList, path := "/odata/people('a+b')".toList, rawQuery := ['x'], query := [(['x'], [])] } := rfl
  exact (decoded_iff word_get names parsed).mpr (by decide)

/-- Of two encodings of one key only the escaped one keeps the plus sign. -/
theorem decoded_plus : ∃ request other,
    parseHttpRequest (requestHead "GET".toList "/odata/people('a+b')".toList "\r\n".toList) = some request ∧
    parseHttpRequest (requestHead "GET".toList "/odata/people('a%2Bb')".toList "\r\n".toList) = some other ∧
    percentDecode "/odata/people('a+b')".toList = percentDecode "/odata/people('a%2Bb')".toList ∧
    ¬ Decoded "/odata/people('a+b')".toList request ∧
    (parseRoute {} request.path).keys = ["'a b'".toList] ∧ (parseRoute {} other.path).keys = ["'a+b'".toList] := by
  refine ⟨_, _, rfl, rfl, by decide, ?_, by decide, by decide⟩
  intro decoded
  exact absurd decoded.path (by decide)

end DuckdbOdata.PathDecoding
