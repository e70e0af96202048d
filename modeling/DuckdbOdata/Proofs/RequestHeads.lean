import DuckdbOdata.Proofs.HttpTargets
import Mathlib.Data.List.Induction
import Mathlib.Data.List.TakeWhile

/-! Heads of requests, rendered and parsed back. A list of headers arrives as the
map from each lower-cased name to its last value; a second Content-Length or a
line without a name spoils the whole head. -/

namespace DuckdbOdata.RequestHeads
open Text HttpTargets

theorem crlfLines_all {lines : List Str} (single : ∀ line ∈ lines, OneLine line) (rest : Str) :
    crlfLines (lines.flatMap (fun line => line ++ "\r\n".toList) ++ rest) = lines ++ crlfLines rest := by
  induction lines with
  | nil => rfl
  | cons line lines ih =>
    have first := crlfLines_oneLine (single line List.mem_cons_self)
    have later := ih fun other member => single other (List.mem_cons_of_mem _ member)
    have ending : "\r\n".toList = ['\r', '\n'] := rfl
    rw [List.flatMap_cons, ending, List.append_assoc, List.append_assoc, List.cons_append, List.cons_append, List.nil_append, first,
      ← ending, later, List.cons_append]

/-- A name that can stand before the colon. -/
structure HeaderName (name : Str) : Prop where
  some : name ≠ []
  plain : ∀ c ∈ name, c ≠ ':' ∧ isTab c = false

/-- A header line with a valid name. -/
def Named (line : Str) : Prop := ∃ name value, line = name ++ ':' :: value ∧ HeaderName name

def renderHeader (header : Str × Str) : Str := header.1 ++ ':' :: header.2

/-- The line of a header is a Content-Length. -/
def IsLength (header : Str × Str) : Prop := toLower header.1 = "content-length".toList

instance (header : Str × Str) : Decidable (IsLength header) := inferInstanceAs (Decidable (_ = _))

theorem parseHeader_render {header : Str × Str} (named : HeaderName header.1) (known : List (Str × Str)) :
    parseHeader known (renderHeader header) =
      if IsLength header ∧ (known.lookup (toLower header.1)).isSome then none
      else some (setHeader (toLower header.1) (trimTabs header.2) known) := by
  have free : ':' ∉ header.1 := fun member => (named.plain _ member).1 rfl
  have solid : header.1.any isTab = false := by
    rw [List.any_eq_false]
    intro c member
    simp [(named.plain c member).2]
  unfold parseHeader renderHeader
  rw [cut_first free]
  simp only [named.some, solid, Bool.false_eq_true, or_self, if_false]
  rfl

/-- A line without a valid name is refused. -/
theorem parseHeader_unnamed {line : Str} (unnamed : ¬ Named line) (known : List (Str × Str)) : parseHeader known line = none := by
  unfold parseHeader
  split
  next => rfl
  next name value cuts =>
    obtain ⟨rfl, free⟩ := cut_join cuts
    rw [if_pos]
    by_contra fine
    simp only [not_or, Bool.not_eq_true, List.any_eq_false] at fine
    apply unnamed
    refine ⟨name, value, rfl, fine.1, ?_⟩
    intro c member
    constructor
    · rintro rfl
      exact free member
    · simpa using fine.2 c member

theorem lookup_setHeader (name value : Str) (headers : List (Str × Str)) (key : Str) :
    (setHeader name value headers).lookup key = if key = name then some value else headers.lookup key := by
  unfold setHeader
  rw [List.lookup_cons]
  by_cases same : key = name
  · simp [same]
  · rw [beq_false_of_ne same, if_neg same]
    dsimp only
    induction headers with
    | nil => rfl
    | cons header headers ih =>
      obtain ⟨other, held⟩ := header
      by_cases dropped : other = name
      · subst dropped
        rw [List.filter_cons_of_neg (by simp), ih, List.lookup_cons, beq_false_of_ne same]
      · rw [List.filter_cons_of_pos (by simpa using dropped), List.lookup_cons, List.lookup_cons, ih]

/-- The last of the headers with this lower-cased name. -/
def lastOf (headers : List (Str × Str)) (key : Str) : Option (Str × Str) :=
  (headers.filter fun header => toLower header.1 = key).getLast?

/-- Every name maps to the trimmed value of its last header. -/
def Collects (headers fields : List (Str × Str)) : Prop := ∀ key, fields.lookup key = (lastOf headers key).map fun header => trimTabs header.2

private theorem lastOf_concat (headers : List (Str × Str)) (header : Str × Str) (key : Str) :
    lastOf (headers ++ [header]) key = if key = toLower header.1 then some header else lastOf headers key := by
  unfold lastOf
  rw [List.filter_append]
  by_cases same : key = toLower header.1
  · rw [List.filter_cons_of_pos (by simp [same]), List.filter_nil, List.getLast?_concat, if_pos same]
  · have other : ¬ toLower header.1 = key := fun equal => same equal.symm
    rw [List.filter_cons_of_neg (by simpa using other), List.filter_nil, List.append_nil, if_neg same]

private theorem collects_set {headers fields : List (Str × Str)} (collects : Collects headers fields) (header : Str × Str) :
    Collects (headers ++ [header]) (setHeader (toLower header.1) (trimTabs header.2) fields) := by
  intro key
  rw [lookup_setHeader, lastOf_concat]
  split
  · rfl
  · exact collects key

/-- The number of Content-Length lines. -/
def lengthLines (headers : List (Str × Str)) : Nat := headers.countP fun header => IsLength header

private theorem lookup_length {headers fields : List (Str × Str)} (collects : Collects headers fields) :
    (fields.lookup "content-length".toList).isSome = true ↔ 0 < lengthLines headers := by
  rw [collects, Option.isSome_map, lastOf, List.getLast?_isSome, List.ne_nil_iff_length_pos, ← List.countP_eq_length_filter]
  rfl

/-- The headers are collected, unless there are two Content-Length lines. -/
theorem parseHeader_all {headers : List (Str × Str)} (named : ∀ header ∈ headers, HeaderName header.1) :
    if 1 < lengthLines headers then (headers.map renderHeader).foldlM parseHeader [] = none
    else ∃ fields, (headers.map renderHeader).foldlM parseHeader [] = some fields ∧ Collects headers fields := by
  induction headers using List.reverseRecOn with
  | nil => exact ⟨[], rfl, fun key => rfl⟩
  | append_singleton headers header ih =>
    have before := ih fun other member => named other (List.mem_append_left _ member)
    have count : lengthLines (headers ++ [header]) = lengthLines headers + if IsLength header then 1 else 0 := by
      simp [lengthLines, List.countP_append, List.countP_cons]
    have step := parseHeader_render (named header (by simp))
    rw [List.map_append, List.map_singleton, List.foldlM_append]
    split at before
    next twice =>
      rw [if_pos (by omega), before]
      rfl
    next once =>
      obtain ⟨fields, collected, collects⟩ := before
      have known := lookup_length collects
      rw [collected]
      simp only [Option.bind_eq_bind, Option.bind_some, List.foldlM_cons, List.foldlM_nil]
      rw [step]
      by_cases length : IsLength header
      · rw [if_pos length] at count
        have same : toLower header.1 = "content-length".toList := length
        by_cases first : 0 < lengthLines headers
        · rw [if_pos (by omega), if_pos ⟨length, same ▸ known.mpr first⟩]
          rfl
        · have fresh : ¬ (fields.lookup (toLower header.1)).isSome = true := fun found => first (known.mp (same ▸ found))
          rw [if_neg (by omega), if_neg (fun both => fresh both.2)]
          exact ⟨_, rfl, collects_set collects header⟩
      · rw [if_neg length] at count
        rw [if_neg (by omega), if_neg (fun both => length both.1)]
        exact ⟨_, rfl, collects_set collects header⟩

/-- A head with its blank line. -/
def renderHead (method target version : Str) (headers : List (Str × Str)) : Str :=
  method ++ ' ' :: (target ++ ' ' :: version) ++ "\r\n".toList ++
    ((headers.map renderHeader).flatMap fun line => line ++ "\r\n".toList) ++ "\r\n".toList

/-- What a rendered head is parsed to. -/
structure Parsed (method target : Str) (headers : List (Str × Str)) (request : HttpRequest) : Prop where
  method : request.method = method
  path : request.path = urlDecode (target.takeWhile (· ≠ '?'))
  rawQuery : request.rawQuery = (target.dropWhile (· ≠ '?')).tail
  query : request.query = parseQueryString request.rawQuery
  headers : Collects headers request.headers

/-- The target is cut at its first question mark. -/
theorem requestOf_target (method target : Str) (headers : List (Str × Str)) :
    (requestOf method target headers).path = urlDecode (target.takeWhile (· ≠ '?')) ∧
      (requestOf method target headers).rawQuery = (target.dropWhile (· ≠ '?')).tail := by
  have kept : ∀ {before : Str}, '?' ∉ before → ∀ c ∈ before, decide (c ≠ '?') = true := by
    intro before free c member
    apply decide_eq_true
    rintro rfl
    exact free member
  unfold requestOf
  split
  next uncut =>
    have plain := kept (cut_missing uncut)
    rw [List.takeWhile_eq_self_iff.mpr plain, List.dropWhile_eq_nil_iff.mpr plain]
    exact ⟨rfl, rfl⟩
  next before after cuts =>
    obtain ⟨rfl, free⟩ := cut_join cuts
    rw [List.takeWhile_append_of_pos (kept free), List.dropWhile_append_of_pos (kept free)]
    simp

private theorem requestOf_parsed (method target : Str) {headers fields : List (Str × Str)} (collects : Collects headers fields) :
    Parsed method target headers (requestOf method target fields) := by
  obtain ⟨path, rawQuery⟩ := requestOf_target method target fields
  have query : (requestOf method target fields).query = parseQueryString (requestOf method target fields).rawQuery := by
    unfold requestOf
    split <;> rfl
  obtain ⟨same, kept, -⟩ := requestOf_kept method target fields
  exact ⟨same, path, rawQuery, query, kept.symm ▸ collects⟩

private theorem crlfLines_head {line : Str} {lines : List Str} (single : OneLine line) (others : ∀ other ∈ lines, OneLine other)
    (rest : Str) : crlfLines (line ++ "\r\n".toList ++ (lines.flatMap fun line => line ++ "\r\n".toList) ++ rest) =
      line :: (lines ++ crlfLines rest) := by
  have first := crlfLines_oneLine single ((lines.flatMap fun line => line ++ "\r\n".toList) ++ rest)
  rw [crlfLines_all others] at first
  rw [← first]
  simp

private theorem foldlM_refused {line : Str} (unnamed : ¬ Named line) {lines : List Str} (member : line ∈ lines)
    (known : List (Str × Str)) : lines.foldlM parseHeader known = none := by
  induction lines generalizing known with
  | nil => exact absurd member List.not_mem_nil
  | cons first lines ih =>
    rw [List.foldlM_cons]
    rcases List.mem_cons.mp member with rfl | later
    · rw [parseHeader_unnamed unnamed]
      rfl
    · cases parseHeader known first with
      | none => rfl
      | some fields => exact ih later fields

private theorem present {lines : List Str} (some : ∀ line ∈ lines, line ≠ []) (rest : List Str) :
    (lines ++ rest).takeWhile (fun line => decide (line ≠ [])) = lines ++ rest.takeWhile fun line => decide (line ≠ []) :=
  List.takeWhile_append_of_pos fun line member => decide_eq_true (some line member)

/-- A header line without a valid name spoils the head. -/
theorem unnamed_refused {line : Str} {lines : List Str} (single : OneLine line)
    (others : ∀ other ∈ lines, OneLine other ∧ other ≠ []) (unnamed : ∃ other ∈ lines, ¬ Named other) (rest : Str) :
    parseHttpRequest (line ++ "\r\n".toList ++ (lines.flatMap fun line => line ++ "\r\n".toList) ++ rest) = none := by
  obtain ⟨bad, member, unnamed⟩ := unnamed
  have refused : parseHeaders (lines ++ crlfLines rest) = none := by
    unfold parseHeaders
    rw [present fun other member => (others other member).2]
    exact foldlM_refused unnamed (List.mem_append_left _ member) []
  unfold parseHttpRequest
  rw [crlfLines_head single fun other member => (others other member).1]
  dsimp only
  rw [refused]
  split
  next => exact ite_self _
  next => rfl

private theorem oneLine_colon {first last : Str} (one : OneLine first) (other : OneLine last) : OneLine (first ++ ':' :: last) := by
  induction first with
  | nil =>
    intro inside
    rcases List.infix_cons_iff.mp inside with starts | later
    · obtain ⟨rest, same⟩ := starts
      cases same
    · exact other later
  | cons c first ih =>
    obtain ⟨apart, later⟩ := one.cons
    intro inside
    rcases List.infix_cons_iff.mp inside with starts | within
    · obtain ⟨rest, same⟩ := starts
      cases first with
      | nil => cases same
      | cons d first =>
        cases same
        exact apart rfl rfl
    · exact ih later within

private theorem word_oneLine {text : Str} (solid : ∀ c ∈ text, isSpace c = false ∨ c = ' ') : OneLine text := by
  intro inside
  have member := inside.subset (List.mem_cons_self (a := '\r'))
  rcases solid _ member with space | blank
  · cases space
  · cases blank

/-- Parsing undoes rendering, unless there are two Content-Length headers. -/
theorem parse_rendered {method target version : Str} {headers : List (Str × Str)} (asks : Word method) (names : Word target)
    (known : version = "HTTP/1.0".toList ∨ version = "HTTP/1.1".toList)
    (fields : ∀ header ∈ headers, HeaderName header.1 ∧ OneLine header.1 ∧ OneLine header.2) :
    if 1 < lengthLines headers then parseHttpRequest (renderHead method target version headers) = none
    else ∃ request, parseHttpRequest (renderHead method target version headers) = some request ∧
      Parsed method target headers request := by
  have versioned : Word version := by
    rcases known with rfl | rfl
    · exact ⟨by decide, every (by decide)⟩
    · exact ⟨by decide, every (by decide)⟩
  have line : OneLine (method ++ ' ' :: (target ++ ' ' :: version)) := by
    apply word_oneLine
    intro c member
    simp only [List.mem_append, List.mem_cons] at member
    rcases member with inside | rfl | inside | rfl | inside
    · exact .inl (asks.solid c inside)
    · exact .inr rfl
    · exact .inl (names.solid c inside)
    · exact .inr rfl
    · exact .inl (versioned.solid c inside)
  have lines : ∀ other ∈ headers.map renderHeader, OneLine other ∧ other ≠ [] := by
    intro other member
    obtain ⟨header, listed, rfl⟩ := List.mem_map.mp member
    obtain ⟨named, first, last⟩ := fields header listed
    exact ⟨oneLine_colon first last, by simp [renderHeader]⟩
  have collected := parseHeader_all fun header member => (fields header member).1
  have blank : crlfLines "\r\n".toList = [[]] := rfl
  have whole : parseHttpRequest (renderHead method target version headers) =
      ((headers.map renderHeader).foldlM parseHeader []).map (requestOf method target) := by
    unfold parseHttpRequest renderHead
    rw [crlfLines_head line fun other member => (lines other member).1, blank]
    dsimp only
    rw [asks.before, names.before, versioned.last]
    dsimp only
    rw [if_pos known.symm, parseHeaders, present fun other member => (lines other member).2]
    simp
  rw [whole]
  split at collected
  next twice =>
    rw [if_pos twice, collected]
    rfl
  next once =>
    obtain ⟨found, done, collects⟩ := collected
    rw [if_neg once, done]
    exact ⟨_, rfl, requestOf_parsed method target collects⟩

/-- Parsing undoes rendering, unless there are two Content-Length headers, and
every head with a line that has no valid name is refused. -/
theorem parse_heads :
    (∀ method target version headers, Word method → Word target → version = "HTTP/1.0".toList ∨ version = "HTTP/1.1".toList →
      (∀ header ∈ headers, HeaderName header.1 ∧ OneLine header.1 ∧ OneLine header.2) →
      if 1 < lengthLines headers then parseHttpRequest (renderHead method target version headers) = none
      else ∃ request, parseHttpRequest (renderHead method target version headers) = some request ∧
        Parsed method target headers request) ∧
      ∀ (line : Str) (lines : List Str) (rest : Str), OneLine line → (∀ other ∈ lines, OneLine other ∧ other ≠ []) → (∃ other ∈ lines, ¬ Named other) →
        parseHttpRequest (line ++ "\r\n".toList ++ (lines.flatMap fun line => line ++ "\r\n".toList) ++ rest) = none := by
  constructor
  · intro method target version headers asks names known fields
    exact parse_rendered asks names known fields
  · intro line lines rest single others unnamed
    exact unnamed_refused single others unnamed rest

private theorem shortFields : ∀ header ∈ [("Content-Length".toList, " 1".toList), ("content-length".toList, "2".toList)],
    HeaderName header.1 ∧ OneLine header.1 ∧ OneLine header.2 := by
  intro header member
  have single : ∀ {text : Str}, '\r' ∉ text → OneLine text := fun plain inside => plain (inside.subset List.mem_cons_self)
  simp only [List.mem_cons, List.not_mem_nil, or_false] at member
  rcases member with rfl | rfl
  all_goals exact ⟨⟨by decide, every (by decide)⟩, single (by decide), single (by decide)⟩

theorem parse_heads_post :
    (∃ request, parseHttpRequest (renderHead "POST".toList "/odata/t?$top=1".toList "HTTP/1.1".toList
        [("Content-Length".toList, " 1".toList)]) = some request ∧
      Parsed "POST".toList "/odata/t?$top=1".toList [("Content-Length".toList, " 1".toList)] request) ∧
    parseHttpRequest (renderHead "POST".toList "/odata/t?$top=1".toList "HTTP/1.1".toList
      [("Content-Length".toList, " 1".toList), ("content-length".toList, "2".toList)]) = none := by
  have asks : Word "POST".toList := ⟨by decide, every (by decide)⟩
  have names : Word "/odata/t?$top=1".toList := ⟨by decide, every (by decide)⟩
  constructor
  · have once := parse_heads.1 _ _ _ [("Content-Length".toList, " 1".toList)] asks names (.inr rfl) fun header member =>
      shortFields header (List.mem_cons.mpr (.inl (List.mem_singleton.mp member)))
    rwa [if_neg (by decide)] at once
  · have twice := parse_heads.1 _ _ _ _ asks names (.inr rfl) shortFields
    rwa [if_pos (by decide)] at twice

end DuckdbOdata.RequestHeads
