import DuckdbOdata.Proofs.HttpTargets
import DuckdbOdata.Proofs.JsonTexts
import DuckdbOdata.Proofs.Routes
import Mathlib.Data.List.Infix

/-! The entity URLs of the service document. They are the raw names: requested
below the base path, one leads to its collection exactly when nothing in it or in
the base path means something else in a request. -/

namespace DuckdbOdata.AdvertisedUrls
open Text JsonTexts HttpTargets Routes

/-- An entry of the service document names an entity and its URL. -/
def Advertises (state : ServerState) (catalog : Catalog) (name url : Str) : Prop :=
  ∃ binding ∈ state.bindings, resolves catalog binding = true ∧ binding.name = name ∧
    ∃ kind, Json.read (serviceElement binding) =
      some (.object [("name".toList, .string name), ("kind".toList, .string kind), ("url".toList, .string url)])

/-- A base path without a closing slash. -/
def stem (base : Str) : Str := if base.getLast? = some '/' then base.dropLast else base

def targetOf (base url : Str) : Str := stem base ++ '/' :: url

/-- The route of the collection of the entity `entity`. -/
structure CollectionRoute (route : Route) (entity : Str) : Prop where
  named : route.entity = entity ∧ entity ≠ []
  keyless : route.keys = []
  resource : route.health = false ∧ route.serviceDoc = false ∧ route.metadata = false

/-- A GET request for the target, with any headers, is routed to the collection. -/
def Resolves (state : ServerState) (target entity : Str) : Prop :=
  ∀ rest headers, parseHeaders (crlfLines rest) = some headers →
    ∃ request, parseHttpRequest (requestHead "GET".toList target rest) = some request ∧
      CollectionRoute (parseRoute state request.path) entity

/-- Nothing in the target means something else. -/
structure Linkable (base entity : Str) : Prop where
  closing : base = "/".toList ∨ base.getLast? ≠ some '/'
  chars : ∀ c ∈ targetOf base entity, isSpace c = false ∧ c ≠ '?'
  literal : urlDecode (targetOf base entity) = targetOf base entity
  addressable : Addressable entity
  apart : entity ≠ "$metadata".toList ∧ (base = "/".toList → entity ≠ "health".toList)

theorem servedBasePath_some {address basePath base : Str} (served : servedBasePath address basePath = some base) : base ≠ [] := by
  have path : ∀ rest : Str, (if rest = [] then "/odata".toList else '/' :: rest) ≠ [] := by
    intro rest
    split
    · exact List.cons_ne_nil _ _
    · exact List.cons_ne_nil _ _
  obtain ⟨parsed, addressed, same⟩ := Option.map_eq_some_iff.mp served
  split at same
  next =>
    subst same
    unfold parseAddress at addressed
    split at addressed
    · cases addressed
      exact path []
    · obtain ⟨split', -, same⟩ := Option.map_eq_some_iff.mp addressed
      cases same
      exact path _
  next some => exact same ▸ some

/-- The URL is the name itself. -/
theorem advertises_name {state : ServerState} {catalog : Catalog} {entity url : Str} (advertised : Advertises state catalog entity url) :
    url = entity := by
  obtain ⟨binding, -, -, rfl, kind, read⟩ := advertised
  rw [(serviceElement_closes binding).read, entryOf] at read
  simp only [Option.some.injEq, Json.Value.object.injEq, List.cons.injEq, Prod.mk.injEq, Json.Value.string.injEq] at read
  exact read.2.2.1.2.symm

private theorem words_flatten (text : Str) : (words text).flatten = text.filter fun c => !isSpace c := by
  induction text using words.induct with
  | case1 => rfl
  | case2 c rest space ih =>
    rw [words.eq_def]
    simp only [space, ite_true]
    rw [ih, List.filter_cons_of_neg (by simp [space])]
  | case3 c solid =>
    simp [words, solid]
  | case4 c solid d rest space ih =>
    rw [words.eq_def]
    simp only [solid, Bool.false_eq_true, ite_false, space, ite_true, List.flatten_cons]
    rw [List.filter_cons_of_pos (by simp [solid]), ih]
    rfl
  | case5 c solid d rest other none ih =>
    rw [words.eq_def]
    simp only [solid, Bool.false_eq_true, ite_false, other, none]
    rw [List.filter_cons_of_pos (by simp [solid]), ← ih, none]
    rfl
  | case6 c solid d rest other word others some ih =>
    rw [words.eq_def]
    simp only [solid, Bool.false_eq_true, ite_false, other, some]
    rw [List.filter_cons_of_pos (by simp [solid]), ← ih, some]
    rfl

private theorem crlfLines_first (text rest : Str) {line : Str} {lines : List Str}
    (split : crlfLines (text ++ '\r' :: '\n' :: rest) = line :: lines) : line <+: text := by
  induction text generalizing line lines with
  | nil =>
    cases split
    exact List.nil_prefix
  | cons c text ih =>
    by_cases ends : c = '\r' ∧ ∃ more, text = '\n' :: more
    · obtain ⟨rfl, more, rfl⟩ := ends
      cases split
      exact List.nil_prefix
    · have next : ∀ more, c = '\r' → text ++ '\r' :: '\n' :: rest ≠ '\n' :: more := by
        rintro more rfl same
        cases text with
        | nil => cases same
        | cons d text =>
          cases same
          exact ends ⟨rfl, text, rfl⟩
      rw [List.cons_append, crlfLines.eq_3 c _ next] at split
      split at split
      next => cases split
      next first others found =>
        cases split
        exact List.prefix_cons_inj c |>.mpr (ih found)

private theorem cut_length {sep : Char} {text before after : Str} (found : cut sep text = some (before, after)) :
    before.length < text.length := by
  obtain ⟨rfl, -⟩ := cut_join found
  simp

private theorem requestOf_path (method target : Str) (headers : List (Str × Str)) :
    (requestOf method target headers).path.length ≤ target.length ∧
      ((requestOf method target headers).path.length = target.length →
        '?' ∉ target ∧ (requestOf method target headers).path = urlDecode target) := by
  unfold requestOf
  split
  next none => exact ⟨(urlDecode_length target).1, fun _ => ⟨cut_missing none, rfl⟩⟩
  next path rawQuery found =>
    have shorter := cut_length found
    have decoded := (urlDecode_length path).1
    exact ⟨by dsimp only; omega, fun same => absurd same (by dsimp only; omega)⟩

private theorem short_words : ∀ line ∈ "GET ".toList.inits, (words line).length ≤ 1 := by decide

private theorem parse_path_length {target rest : Str} {request : HttpRequest}
    (parsed : parseHttpRequest (requestHead "GET".toList target rest) = some request) :
    request.path.length ≤ (target.filter fun c => !isSpace c).length := by
  have head : requestHead "GET".toList target rest = ("GET ".toList ++ (target ++ " HTTP/1.1".toList)) ++ '\r' :: '\n' :: rest := by
    simp [requestHead]
  unfold parseHttpRequest at parsed
  rw [head] at parsed
  split at parsed
  next => cases parsed
  next line lines split' =>
  split at parsed
  next method asked version found =>
    split at parsed
    next known =>
      obtain ⟨headers, -, rfl⟩ := Option.map_eq_some_iff.mp parsed
      have inside := crlfLines_first _ _ split'
      have starts : "GET ".toList <+: line := by
        rcases List.prefix_or_prefix_of_prefix inside (List.prefix_append _ _) with short | starts
        · have few := short_words line (List.mem_inits _ _ |>.mpr short)
          rw [found] at few
          exact absurd few (by simp)
        · exact starts
      obtain ⟨tail, rfl⟩ := starts
      have first : words ("GET ".toList ++ tail) = "GET".toList :: words tail := word_get.before tail
      rw [first] at found
      have texts : (words tail).flatten = asked ++ version := by
        rw [(List.cons.inj found).2]
        simp
      have length : version.length = 8 := by
        rcases known with rfl | rfl <;> rfl
      have solid := congrArg List.length ((words_flatten tail).symm.trans texts)
      have kept := (((List.prefix_append_right_inj _).mp inside).filter fun c => !isSpace c).length_le
      have version' : ((" HTTP/1.1".toList).filter fun c => !isSpace c).length = 8 := rfl
      rw [List.filter_append, List.length_append, version', solid, List.length_append, length] at kept
      have path := (requestOf_path method asked headers).1
      omega
    next => cases parsed
  next => cases parsed

private theorem collection_below {state : ServerState} {path entity : Str} (route : CollectionRoute (parseRoute state path) entity) :
    path ≠ "/health".toList ∧ ∃ remaining, belowBase state.basePath path = some ('/' :: remaining) ∧
      '/' :: remaining ≠ "/$metadata".toList ∧ CollectionRoute (resourceRoute remaining) entity := by
  obtain ⟨⟨same, named⟩, keyless, health, service, metadata⟩ := route
  unfold parseRoute at same keyless health service metadata
  split at health
  next => cases health
  next apart =>
  rw [if_neg apart] at same keyless service metadata
  refine ⟨apart, ?_⟩
  split at service
  next => cases service
  next other =>
  rw [if_neg other] at same keyless metadata
  cases below : belowBase state.basePath path with
  | none =>
    rw [below] at same
    exact absurd same.symm named
  | some rest =>
    simp only [below] at same keyless service metadata
    split at service
    next => cases service
    next whole =>
    rw [if_neg whole] at same keyless metadata
    split at metadata
    next => cases metadata
    next document =>
    rw [if_neg document] at same keyless
    split at same
    next remaining => exact ⟨remaining, rfl, document, ⟨same, named⟩, keyless, (resourceRoute_plain remaining).1,
        (resourceRoute_plain remaining).2.1, (resourceRoute_plain remaining).2.2.1⟩
    next => exact absurd same.symm named

private theorem collection_entity {remaining entity : Str} (route : CollectionRoute (resourceRoute remaining) entity) :
    entity.length ≤ remaining.length ∧ (entity.length = remaining.length → remaining = entity) ∧ Addressable entity := by
  obtain ⟨⟨same, named⟩, -⟩ := route
  have start : entity <+: remaining := same ▸ resourceRoute_prefix remaining
  exact ⟨start.length_le, fun long => (start.eq_of_length long).symm, named, same ▸ resourceRoute_entity remaining⟩

private theorem stem_length (base : Str) :
    (stem base).length ≤ base.length ∧ (base.getLast? = some '/' → (stem base).length < base.length) := by
  unfold stem
  split
  next slash =>
    have some : base ≠ [] := by
      rintro rfl
      cases slash
    have short : base.dropLast.length < base.length := by
      rw [List.length_dropLast]
      have := List.length_pos_iff.mpr some
      omega
    exact ⟨short.le, fun _ => short⟩
  next other => exact ⟨le_rfl, fun slash => absurd slash other⟩

private theorem below_length {base path remaining : Str} (some : base ≠ []) (named : remaining ≠ [])
    (below : belowBase base path = .some ('/' :: remaining)) :
    ∃ front, path = front ++ '/' :: remaining ∧ (stem base).length ≤ front.length ∧
      (front.length = (stem base).length →
        (base = "/".toList ∨ base.getLast? ≠ .some '/') ∧ toLower front = toLower (stem base)) := by
  unfold belowBase at below
  split at below
  next root =>
    have slash : base = "/".toList := root.resolve_left some
    subst slash
    cases below
    exact ⟨[], rfl, le_rfl, fun _ => ⟨.inl rfl, rfl⟩⟩
  next other =>
  split at below
  next covers =>
    have start := List.isPrefixOf_iff_prefix.mp covers
    have long : base.length ≤ path.length := by simpa [toLower] using start.length_le
    have whole : path = path.take base.length ++ '/' :: remaining := by
      split at below
      next => cases below; exact absurd rfl named
      next c rest found =>
        split at below
        next =>
          cases below
          rw [← found, List.take_append_drop]
        next => cases below
    have front : toLower (path.take base.length) = toLower base := by
      have lower := List.prefix_iff_eq_take.mp start
      rw [lower]
      simp [toLower, List.map_take]
    have length : (path.take base.length).length = base.length := List.length_take_of_le long
    refine ⟨_, whole, by rw [length]; exact (stem_length base).1, fun same => ?_⟩
    rw [length] at same
    have plain : base.getLast? ≠ .some '/' := fun slash => absurd ((stem_length base).2 slash) (by omega)
    refine ⟨.inr plain, ?_⟩
    rw [front, stem, if_neg plain]
  next => cases below

private theorem lower_plus (text : Str) (same : toLower (text.map fun c => if c = '+' then ' ' else c) = toLower text) :
    (text.map fun c => if c = '+' then ' ' else c) = text := by
  induction text with
  | nil => rfl
  | cons c text ih =>
    simp only [toLower, List.map_cons, List.cons.injEq] at same ih ⊢
    refine ⟨?_, ih same.2⟩
    by_cases plus : c = '+'
    · subst plus
      exact absurd same.1 (by decide)
    · rw [if_neg plus]

private theorem resolves_literal {state : ServerState} {entity : Str} (some : state.basePath ≠ [])
    (resolves : Resolves state (targetOf state.basePath entity) entity) : Linkable state.basePath entity := by
  obtain ⟨request, parsed, route⟩ := resolves "\r\n".toList [] rfl
  obtain ⟨health, remaining, below, document, resource⟩ := collection_below route
  obtain ⟨shorter, same, addressable⟩ := collection_entity resource
  have named : remaining ≠ [] := by
    rintro rfl
    exact addressable.1 (List.length_eq_zero_iff.mp (Nat.le_zero.mp shorter))
  obtain ⟨front, path, longer, base⟩ := below_length some named below
  have length := parse_path_length parsed
  have blanks := List.length_filter_le (fun c => !isSpace c) (targetOf state.basePath entity)
  have target : (targetOf state.basePath entity).length = (stem state.basePath).length + 1 + entity.length := by
    simp [targetOf]
    omega
  rw [path, List.length_append, List.length_cons] at length
  -- Nothing may be lost on the way from the target to the name.
  have entityKept : entity.length = remaining.length := by omega
  have baseKept : front.length = (stem state.basePath).length := by omega
  have solid : ∀ c ∈ targetOf state.basePath entity, isSpace c = false := by
    have kept : ((targetOf state.basePath entity).filter fun c => !isSpace c).length = (targetOf state.basePath entity).length := by
      omega
    intro c member
    simpa using List.length_filter_eq_length_iff.mp kept c member
  have word : Word (targetOf state.basePath entity) := ⟨by simp [targetOf], solid⟩
  rw [parseHttpRequest_target word_get word] at parsed
  obtain ⟨headers, -, rfl⟩ := Option.map_eq_some_iff.mp parsed
  have kept := same entityKept
  subst kept
  obtain ⟨question, decoded⟩ := (requestOf_path "GET".toList (targetOf state.basePath remaining) headers).2
    (by rw [path, List.length_append, List.length_cons]; omega)
  have mapped := (urlDecode_length (targetOf state.basePath remaining)).2
    (by rw [← decoded, path, List.length_append, List.length_cons]; omega)
  rw [← decoded, path, targetOf, List.map_append] at mapped
  obtain ⟨stemKept, nameKept⟩ := List.append_inj mapped (by rw [List.length_map]; exact baseKept)
  obtain ⟨closing, lower⟩ := base baseKept
  rw [stemKept] at lower
  refine ⟨closing, fun c member => ⟨solid c member, fun same => question (same ▸ member)⟩, ?_, addressable, ?_, ?_⟩
  · rw [← decoded, path, stemKept, lower_plus _ lower, targetOf]
  · rintro rfl
    exact document rfl
  · rintro root rfl
    apply health
    rw [path, stemKept, lower_plus _ lower, root]
    rfl

private theorem linkable_route {state : ServerState} {entity : Str} (some : state.basePath ≠ [])
    (closing : state.basePath = "/".toList ∨ state.basePath.getLast? ≠ .some '/') (addressable : Addressable entity)
    (document : entity ≠ "$metadata".toList) (health : state.basePath = "/".toList → entity ≠ "health".toList) :
    parseRoute state (targetOf state.basePath entity) = { entity } := by
  have below : belowBase state.basePath (targetOf state.basePath entity) = .some ('/' :: entity) := by
    by_cases root : state.basePath = "/".toList
    · rw [root]
      rfl
    · rw [targetOf, stem, if_neg (closing.resolve_left root)]
      exact belowBase_append some root entity
  rw [parseRoute_below ?_ ?_ below addressable.1 document]
  · exact (resourceRoute_collection addressable.2).1
  · intro same
    cases front : stem state.basePath with
    | nil =>
      have root : state.basePath = "/".toList := by
        by_contra other
        rw [stem, if_neg (closing.resolve_left other)] at front
        exact some front
      rw [targetOf, front] at same
      exact health root (by simpa using same)
    | cons c rest =>
      rw [targetOf, front, List.cons_append] at same
      have tail : rest ++ '/' :: entity = "health".toList := by
        rw [String.toList_ofList] at same ⊢
        exact (List.cons.inj same).2
      have slash : '/' ∈ "health".toList := by
        rw [← tail]
        simp
      exact absurd slash (by decide)
  · intro same
    have short := congrArg List.length same
    have := List.length_pos_iff.mpr addressable.1
    simp [targetOf] at short
    omega

private theorem linkable_resolves {state : ServerState} {entity : Str} (some : state.basePath ≠ [])
    (linkable : Linkable state.basePath entity) : Resolves state (targetOf state.basePath entity) entity := by
  obtain ⟨closing, chars, literal, addressable, document, health⟩ := linkable
  have word : Word (targetOf state.basePath entity) := ⟨by simp [targetOf], fun c member => (chars c member).1⟩
  intro rest headers parsed
  refine ⟨requestOf "GET".toList (targetOf state.basePath entity) headers, ?_, ?_⟩
  · rw [parseHttpRequest_target word_get word, parsed]
    rfl
  · have path : (requestOf "GET".toList (targetOf state.basePath entity) headers).path = targetOf state.basePath entity := by
      unfold requestOf
      rw [cut_none fun member => (chars _ member).2 rfl]
      exact literal
    rw [path, linkable_route some closing addressable document health]
    exact ⟨⟨rfl, addressable.1⟩, rfl, rfl, rfl, rfl⟩

/-- The URL that the service document gives for an entity, requested below the
base path, leads to its collection exactly when the base path has no closing
slash, the target holds no blank, question mark, plus sign or escape, and the
name is no other resource. -/
theorem advertised_iff {address basePath : Str} {state : ServerState} (served : servedBasePath address basePath = some state.basePath)
    {catalog : Catalog} {entity url : Str} (advertised : Advertises state catalog entity url) :
    Resolves state (targetOf state.basePath url) entity ↔ Linkable state.basePath entity := by
  rw [advertises_name advertised]
  exact ⟨resolves_literal (servedBasePath_some served), linkable_resolves (servedBasePath_some served)⟩

/-- A catalog whose every table has the one column `id`. -/
private def numbered : Catalog where
  columns _ := .ok [{ columnName := "id".toList, dataType := "INTEGER".toList }]
  primaryKeys _ := .ok []

private def serving (table : Str) : ServerState where
  bindings := [{ name := table, table }]

private theorem serving_advertises (table : Str) : Advertises (serving table) numbered table table :=
  ⟨_, List.mem_singleton_self _, rfl, rfl, _, (serviceElement_closes _).read⟩

private theorem serving_served (table : Str) : servedBasePath [] [] = some (serving table).basePath := rfl

theorem advertised_iff_people :
    Resolves (serving "people".toList) (targetOf "/odata".toList "people".toList) "people".toList :=
  (advertised_iff (serving_served _) (serving_advertises "people".toList)).mpr
    ⟨.inr (by decide), every (by decide), by decide, ⟨by decide, every (by decide)⟩, by decide, by decide⟩

theorem advertised_blank :
    ¬ ∀ (address basePath : Str) (state : ServerState) (catalog : Catalog) (entity url : Str),
      servedBasePath address basePath = some state.basePath → Advertises state catalog entity url →
        Resolves state (targetOf state.basePath url) entity := by
  intro always
  have resolves := always [] [] (serving "sales 2024".toList) numbered "sales 2024".toList "sales 2024".toList
    (serving_served _) (serving_advertises _)
  have linkable := resolves_literal (by decide) resolves
  exact absurd (linkable.chars ' ' (by decide)).1 (by decide)

end DuckdbOdata.AdvertisedUrls
