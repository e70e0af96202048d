import DuckdbOdata.Proofs.FilterGrammar
import DuckdbOdata.Proofs.HttpTargets
import DuckdbOdata.Proofs.Numerals
import DuckdbOdata.Proofs.Routes
import Mathlib.Logic.Function.Iterate

/-! The link to the next page as the target of a request. It repeats the decoded
path and the query as it was sent, and appends the number of rows to skip. -/

namespace DuckdbOdata.NextLinks
open Text FilterGrammar HttpTargets Numerals Routes

def linkedQuery (rawQuery : Str) (skip : Nat) : Str :=
  rawQuery ++ (if rawQuery = [] then [] else "&".toList) ++ "$skip=".toList ++ intText skip

theorem nextLink_query (request : HttpRequest) (skip : Nat) :
    nextLink request skip = request.path ++ '?' :: linkedQuery request.rawQuery skip := by
  unfold nextLink linkedQuery
  simp only [List.append_assoc]
  rfl

private theorem skip_digits (skip : Nat) : intText skip = Nat.toDigits 10 skip := if_neg (by omega)

private theorem digit_of_skip {skip : Nat} {c : Char} (member : c ∈ intText skip) : c.isDigit = true := by
  rw [skip_digits] at member
  exact Nat.isDigit_of_mem_toDigits (by decide) (by decide) member

private theorem not_in_skip {skip : Nat} {c : Char} (other : c.isDigit = false) : c ∉ intText skip := by
  intro member
  rw [digit_of_skip member] at other
  cases other

private theorem skip_unescaped (skip : Nat) : Unescaped (intText skip) := by
  intro c member
  constructor
  · rintro rfl
    exact not_in_skip rfl member
  · rintro rfl
    exact not_in_skip rfl member

private theorem urlDecode_same {text : Str} (unescaped : Unescaped text) : urlDecode text = text := by
  have decoded := urlDecode_unescaped unescaped []
  rwa [List.append_nil, urlDecode, List.append_nil] at decoded

private theorem parse_skip (skip : Nat) : parseQueryString ("$skip=".toList ++ intText skip) = [("$skip".toList, intText skip)] := by
  have name : "$skip=".toList = "$skip".toList ++ ['='] := rfl
  have plain : Unescaped "$skip".toList := every (by decide)
  have free : '&' ∉ "$skip=".toList ++ intText skip := by
    rw [List.mem_append, not_or]
    exact ⟨by decide, not_in_skip rfl⟩
  have one : fields '&' ("$skip=".toList ++ intText skip) = ["$skip=".toList ++ intText skip] := by
    have whole := @fields_intercalate '&' ["$skip=".toList ++ intText skip] (by simpa using free) (List.cons_ne_nil _ _)
    rwa [List.intercalate_singleton] at whole
  have cuts : cut '=' ("$skip=".toList ++ intText skip) = some ("$skip".toList, intText skip) := by
    rw [name, List.append_assoc]
    exact cut_first (by decide) _
  unfold parseQueryString
  rw [one, List.filter_cons_of_pos (by simp), List.filter_nil, List.map_singleton, cuts]
  dsimp only
  rw [urlDecode_same plain, urlDecode_same (skip_unescaped skip)]

/-- A link asks for what the request asked for, and for the rows after some. -/
theorem parse_linked (rawQuery : Str) (skip : Nat) :
    parseQueryString (linkedQuery rawQuery skip) = parseQueryString rawQuery ++ [("$skip".toList, intText skip)] := by
  rw [← parse_skip]
  unfold linkedQuery
  split
  next none =>
    rw [none]
    rfl
  next =>
    have separator : "&".toList = ['&'] := rfl
    rw [separator, List.append_assoc, List.append_assoc, List.singleton_append]
    unfold parseQueryString
    rw [fields_append, List.filter_append, List.map_append]

private theorem parse_rows (name : Str) {skip : Nat} (small : (skip : Int) ≤ int64Max) :
    parseNonNegativeInt name (intText skip) = .ok skip := by
  have present : intText skip ≠ [] := by
    rw [skip_digits]
    exact Nat.toDigits_ne_nil
  have value : Nat.ofDigitChars 10 (intText skip) 0 = skip := by
    rw [skip_digits, Nat.ofDigitChars_ten_toDigits]
  have inside : int64Min ≤ (skip : Int) ∧ (skip : Int) ≤ int64Max := by
    refine ⟨?_, small⟩
    unfold int64Min
    omega
  have converted : stoll (intText skip) = .ok ((skip : Int), (intText skip).length) := by
    have read := @stoll_digits false (intText skip) present fun _ => digit_of_skip
    rw [value] at read
    exact read.trans (if_pos inside)
  unfold parseNonNegativeInt
  rw [if_neg present, converted]
  dsimp only
  rw [if_neg (not_not.mpr rfl), if_neg (by omega)]

theorem options_linked {depth : Int} {entitySet : Str} {options : List (Str × Str)} {query : ODataQuery} {skip : Nat}
    (small : (skip : Int) ≤ int64Max) (parsed : parseOptions depth entitySet options = .ok query) :
    parseOptions depth entitySet (options ++ [("$skip".toList, intText skip)]) = .ok { query with skip } := by
  have last : applyOption depth query ("$skip".toList, intText skip) = .ok { query with skip } := by
    unfold applyOption
    dsimp only
    rw [if_neg (by decide), if_neg (by decide), if_neg (by decide), if_neg (by decide), if_pos rfl, parse_rows _ small]
    rfl
  unfold parseOptions at parsed ⊢
  rw [List.foldlM_append, parsed]
  change List.foldlM (applyOption depth) query [("$skip".toList, intText skip)] = _
  rw [List.foldlM_cons, last]
  rfl

theorem supported_linked {options : List (Str × Str)} (supported : unsupportedOption options = none) (value : Str) :
    unsupportedOption (options ++ [("$skip".toList, value)]) = none := by
  unfold unsupportedOption at supported ⊢
  rw [Option.map_eq_none_iff] at supported ⊢
  rw [List.find?_append, supported]
  rfl

/-- No option says where the rows begin or end. -/
def Unpaged (options : List (Str × Str)) : Prop :=
  ∀ option ∈ options, option.1 ≠ "$top".toList ∧ option.1 ≠ "$skip".toList ∧ option.1 ≠ "$skiptoken".toList

private theorem apply_unpaged {depth : Int} {before after : ODataQuery} {option : Str × Str}
    (other : option.1 ≠ "$top".toList ∧ option.1 ≠ "$skip".toList ∧ option.1 ≠ "$skiptoken".toList)
    (applied : applyOption depth before option = .ok after) : after.top = before.top ∧ after.skip = before.skip := by
  obtain ⟨top, skip, token⟩ := other
  unfold applyOption at applied
  simp only [top, skip, token, ite_false] at applied
  split at applied
  next => cases applied; exact ⟨rfl, rfl⟩
  split at applied
  next =>
    split at applied
    next => cases applied
    next =>
      obtain ⟨filter, -, same⟩ := bind_ok applied
      cases same
      exact ⟨rfl, rfl⟩
  split at applied
  next =>
    obtain ⟨order, -, same⟩ := bind_ok applied
    cases same
    exact ⟨rfl, rfl⟩
  split at applied
  next =>
    obtain ⟨count, -, same⟩ := bind_ok applied
    cases same
    exact ⟨rfl, rfl⟩
  next => cases applied; exact ⟨rfl, rfl⟩

private theorem fold_unpaged {depth : Int} {options : List (Str × Str)} (unpaged : Unpaged options) {before after : ODataQuery}
    (applied : options.foldlM (applyOption depth) before = .ok after) : after.top = before.top ∧ after.skip = before.skip := by
  induction options generalizing before with
  | nil =>
    cases applied
    exact ⟨rfl, rfl⟩
  | cons option options ih =>
    rw [List.foldlM_cons] at applied
    obtain ⟨middle, one, rest⟩ := bind_ok applied
    obtain ⟨top, skip⟩ := apply_unpaged (unpaged option List.mem_cons_self) one
    obtain ⟨lastTop, lastSkip⟩ := ih (fun other member => unpaged other (List.mem_cons_of_mem _ member)) rest
    exact ⟨lastTop.trans top, lastSkip.trans skip⟩

theorem Unpaged.parsed {depth : Int} {entitySet : Str} {options : List (Str × Str)} {query : ODataQuery}
    (unpaged : Unpaged options) (parsed : parseOptions depth entitySet options = .ok query) : query.top = -1 ∧ query.skip = -1 :=
  fold_unpaged unpaged parsed

/-- What a read takes from a route. -/
def resource (route : Route) : Route := { route with invalidKey := false, rest := [] }

/-- A link repeats the path that was decoded, and the next request decodes it once
more. However often that is, it is one word and names the same resource. -/
structure Resumes (state : ServerState) (path : Str) : Prop where
  solid : ∀ times, ∀ c ∈ urlDecode^[times] path, isSpace c = false ∧ c ≠ '?'
  same : ∀ times, resource (parseRoute state (urlDecode^[times] path)) = resource (parseRoute state path)

theorem Resumes.plain (state : ServerState) {path : Str} (solid : ∀ c ∈ path, isSpace c = false ∧ c ≠ '?')
    (unescaped : Unescaped path) : Resumes state path := by
  have fixed : ∀ times, urlDecode^[times] path = path := Function.iterate_fixed (urlDecode_same unescaped)
  constructor
  · intro times
    rw [fixed]
    exact solid
  · intro times
    rw [fixed]

theorem Resumes.next {state : ServerState} {path : Str} (resumes : Resumes state path) : Resumes state (urlDecode path) := by
  have later : ∀ times, urlDecode^[times] (urlDecode path) = urlDecode^[times + 1] path := fun times =>
    (Function.iterate_succ_apply urlDecode times path).symm
  constructor
  · intro times
    rw [later]
    exact resumes.solid (times + 1)
  · intro times
    rw [later]
    exact (resumes.same (times + 1)).trans (resumes.same 1).symm

/-- A link is at most 26 bytes longer than the target of the request: at most one
separator, `$skip=` and 19 digits. -/
theorem nextLink_length (method target : Str) (headers : List (Str × Str)) {skip : Nat} (small : (skip : Int) ≤ int64Max) :
    (nextLink (requestOf method target headers) skip).length ≤ target.length + 26 := by
  have digits : (intText skip).length ≤ 19 := by
    rw [skip_digits]
    refine (Nat.length_toDigits_le_iff (by decide) (by decide)).mpr ?_
    unfold int64Max at small
    omega
  have name : "$skip=".toList.length = 6 := rfl
  unfold requestOf
  split
  next =>
    have decoded := (urlDecode_length target).1
    rw [nextLink_query, linkedQuery]
    simp only [if_true, List.length_append, List.length_cons, List.length_nil, name]
    omega
  next path rawQuery cuts =>
    obtain ⟨rfl, -⟩ := cut_join cuts
    have decoded := (urlDecode_length path).1
    have separator : (if rawQuery = [] then [] else "&".toList : Str).length ≤ 1 := by
      split
      next => exact Nat.zero_le 1
      next => exact Nat.le_refl 1
    rw [nextLink_query, linkedQuery]
    simp only [List.length_append, List.length_cons, name]
    omega

/-- A request that was read from a target. -/
structure Sent (request : HttpRequest) : Prop where
  query : request.query = parseQueryString request.rawQuery
  solid : ∀ c ∈ request.rawQuery, isSpace c = false

theorem Sent.target {target : Str} (names : Word target) (method : Str) (headers : List (Str × Str)) :
    Sent (requestOf method target headers) := by
  unfold requestOf
  split
  next => exact ⟨rfl, nofun⟩
  next path rawQuery cuts =>
    obtain ⟨rfl, -⟩ := cut_join cuts
    refine ⟨rfl, ?_⟩
    intro c member
    exact names.solid c (List.mem_append_right _ (List.mem_cons_of_mem _ member))

variable {state : ServerState} {catalog : Catalog} {request : HttpRequest} {binding : EntityBinding} {built : EdmEntity}
  {query : ODataQuery}

/-- The request that a link is read as. -/
def linkedRequest (request : HttpRequest) (skip : Nat) : HttpRequest where
  method := request.method
  path := urlDecode request.path
  rawQuery := linkedQuery request.rawQuery skip
  query := parseQueryString (linkedQuery request.rawQuery skip)
  headers := request.headers

private theorem linkedQuery_solid {rawQuery : Str} (solid : ∀ c ∈ rawQuery, isSpace c = false) (skip : Nat) :
    ∀ c ∈ linkedQuery rawQuery skip, isSpace c = false := by
  have name : ∀ c ∈ "$skip=".toList, isSpace c = false := every (by decide)
  have digits : ∀ c ∈ intText skip, isSpace c = false := fun c member =>
    solid_of Char.isDigit (digit_of_skip member) (every (by decide))
  have separator : ∀ c ∈ (if rawQuery = [] then [] else "&".toList : Str), isSpace c = false := by
    split
    next => exact nofun
    next => exact every (by decide)
  unfold linkedQuery
  simp only [List.forall_mem_append]
  exact ⟨⟨⟨solid, separator⟩, name⟩, digits⟩

theorem linked_word (sent : Sent request) (resumes : Resumes state request.path) (skip : Nat) : Word (nextLink request skip) := by
  rw [nextLink_query]
  constructor
  · simp
  · intro c member
    rcases List.mem_append.mp member with path | rest
    · exact (resumes.solid 0 c path).1
    rcases List.mem_cons.mp rest with rfl | query
    · rfl
    · exact linkedQuery_solid sent.solid skip c query

theorem requestOf_linked (resumes : Resumes state request.path) (skip : Nat) :
    requestOf request.method (nextLink request skip) request.headers = linkedRequest request skip := by
  have free : '?' ∉ request.path := fun member => (resumes.solid 0 _ member).2 rfl
  unfold requestOf
  rw [nextLink_query, cut_first free]
  rfl

theorem Sent.linked (sent : Sent request) (resumes : Resumes state request.path) (skip : Nat) : Sent (linkedRequest request skip) := by
  rw [← requestOf_linked resumes]
  exact .target (linked_word sent resumes skip) _ _

/-- The next request reaches the same entity, with the rows of the link skipped. -/
theorem reaches_linked (sent : Sent request) (resumes : Resumes state request.path)
    (reaches : Reaches state catalog request binding built query) {skip : Nat} (small : (skip : Int) ≤ int64Max) :
    Reaches state catalog (linkedRequest request skip) binding built { query with skip } := by
  have options : (linkedRequest request skip).query = request.query ++ [("$skip".toList, intText skip)] := by
    rw [sent.query]
    exact parse_linked _ _
  have route : resource (parseRoute state (linkedRequest request skip).path) = resource (parseRoute state request.path) := resumes.same 1
  simp only [resource, Route.mk.injEq] at route
  obtain ⟨service, metadata, health, -, entity, -, -⟩ := route
  constructor
  · exact reaches.reads
  · exact reaches.authorized
  · exact reaches.admitted
  · rw [service, metadata, health]
    exact reaches.resource
  · rw [entity]
    exact reaches.named
  · rw [entity]
    exact reaches.found
  · rw [options]
    exact supported_linked reaches.supported _
  · rw [options]
    exact options_linked small reaches.parsed
  · exact reaches.resolved

theorem keyless_linked (resumes : Resumes state request.path) (keyless : (parseRoute state request.path).keys = []) (skip : Nat) :
    (parseRoute state (linkedRequest request skip).path).keys = [] := by
  have route : (resource (parseRoute state (linkedRequest request skip).path)).keys = (resource (parseRoute state request.path)).keys :=
    congrArg Route.keys (resumes.same 1)
  exact route.trans keyless

end DuckdbOdata.NextLinks
