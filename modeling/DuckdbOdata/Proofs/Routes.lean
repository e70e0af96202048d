import DuckdbOdata.Server.ODataServer
import Mathlib.Data.List.TakeWhile

/-! What a path can come to: the fixed routes, and the routes of an entity. -/

namespace DuckdbOdata.Routes
open Text

theorem parseRoute_cases (state : ServerState) (path : Str) :
    parseRoute state path ∈ [{ health := true }, { serviceDoc := true }, { metadata := true }, {}] ∨
      ∃ remaining, parseRoute state path = resourceRoute remaining := by
  unfold parseRoute
  split
  next => simp
  split
  next => simp
  split
  next => simp
  split
  next => simp
  split
  next => simp
  split
  next => exact .inr ⟨_, rfl⟩
  next => simp

/-- Only a key in parentheses can be malformed. -/
theorem parseRoute_invalid {state : ServerState} {path : Str} (invalid : (parseRoute state path).invalidKey) :
    ∃ remaining, parseRoute state path = resourceRoute remaining := by
  rcases parseRoute_cases state path with fixed | resource
  · simp only [List.mem_cons, List.not_mem_nil, or_false] at fixed
    rcases fixed with same | same | same | same <;> simp [same] at invalid
  · exact resource

theorem resourceRoute_plain (remaining : Str) :
    (resourceRoute remaining).health = false ∧ (resourceRoute remaining).serviceDoc = false ∧
      (resourceRoute remaining).metadata = false ∧ (resourceRoute remaining).keys.length ≤ 1 := by
  unfold resourceRoute
  simp only
  split
  next => exact ⟨rfl, rfl, rfl, Nat.zero_le 1⟩
  next c rest found =>
    split
    next =>
      split
      next => exact ⟨rfl, rfl, rfl, Nat.zero_le 1⟩
      next key after closed =>
        refine ⟨rfl, rfl, rfl, ?_⟩
        dsimp only
        split <;> simp
    next =>
      refine ⟨rfl, rfl, rfl, ?_⟩
      dsimp only
      split <;> simp

/-- A path can name the entity. -/
def Addressable (name : Str) : Prop := name ≠ [] ∧ ∀ c ∈ name, c ≠ '(' ∧ c ≠ '/'

private theorem resourceRoute_name (remaining : Str) :
    (resourceRoute remaining).entity = remaining.takeWhile fun c => c ≠ '(' && c ≠ '/' := by
  unfold resourceRoute
  simp only
  split
  next => rfl
  split
  next => split <;> rfl
  next => rfl

theorem resourceRoute_prefix (remaining : Str) : (resourceRoute remaining).entity <+: remaining := by
  rw [resourceRoute_name]
  exact List.takeWhile_prefix _

theorem resourceRoute_entity (remaining : Str) : ∀ c ∈ (resourceRoute remaining).entity, c ≠ '(' ∧ c ≠ '/' := by
  intro c member
  rw [resourceRoute_name] at member
  simpa using List.mem_takeWhile_imp member

theorem parseRoute_entity (state : ServerState) (path : Str) : ∀ c ∈ (parseRoute state path).entity, c ≠ '(' ∧ c ≠ '/' := by
  rcases parseRoute_cases state path with fixed | ⟨remaining, same⟩
  · simp only [List.mem_cons, List.not_mem_nil, or_false] at fixed
    rcases fixed with same | same | same | same <;> simp [same]
  · rw [same]
    exact resourceRoute_entity remaining

theorem toLower_plain {c d : Char} (plain : c.isAlpha = false) : d.toLower = c ↔ d = c := by
  unfold Char.toLower
  split
  next upper =>
    have low : 65 ≤ d.toNat := UInt32.le_iff_toNat_le.mp upper.1
    have high : d.toNat ≤ 90 := UInt32.le_iff_toNat_le.mp upper.2
    constructor
    · rintro rfl
      have other := Bool.and_eq_false_iff.mp (Bool.or_eq_false_iff.mp plain).2
      simp [UInt32.le_iff_toNat_le, UInt32.toNat_add] at other
      omega
    · rintro rfl
      have letter : d.isAlpha = true := Bool.or_eq_true_iff.mpr (.inl (decide_eq_true upper))
      simp [plain] at letter
  next => rfl

/-- Only letters are changed. -/
theorem mem_toLower {c : Char} (plain : c.isAlpha = false) (text : Str) : c ∈ toLower text ↔ c ∈ text := by
  simp [toLower, toLower_plain plain]

/-- A binding that a request finds has a name that a path can address. -/
theorem findBinding_addressable {state : ServerState} {path : Str} {binding : EntityBinding}
    (named : (parseRoute state path).entity ≠ [])
    (found : findBinding state.bindings (parseRoute state path).entity = some binding) : Addressable binding.name := by
  have same : toLower binding.name = toLower (parseRoute state path).entity := by
    unfold findBinding at found
    have named := List.find?_some found
    exact of_decide_eq_true named
  constructor
  · rintro empty
    rw [empty] at same
    exact named (List.map_eq_nil_iff.mp same.symm)
  · intro c member
    constructor
    · rintro rfl
      have inside := (mem_toLower (by decide) _).mp (same ▸ (mem_toLower (by decide) _).mpr member)
      exact (parseRoute_entity state path _ inside).1 rfl
    · rintro rfl
      have inside := (mem_toLower (by decide) _).mp (same ▸ (mem_toLower (by decide) _).mpr member)
      exact (parseRoute_entity state path _ inside).2 rfl

/-- The collection of an entity, with or without a closing slash. -/
theorem resourceRoute_collection {name : Str} (plain : ∀ c ∈ name, c ≠ '(' ∧ c ≠ '/') :
    resourceRoute name = { entity := name } ∧ resourceRoute (name ++ ['/']) = { entity := name } := by
  have accepted : ∀ c ∈ name, (c ≠ '(' && c ≠ '/') = true := fun c member => by simpa using plain c member
  unfold resourceRoute
  constructor
  · rw [List.takeWhile_eq_self_iff.mpr accepted, List.dropWhile_eq_nil_iff.mpr accepted]
  · rw [List.takeWhile_append_of_pos accepted, List.dropWhile_append_of_pos accepted]
    simp

/-- A path below a base path that is no root. -/
theorem belowBase_append {base : Str} (some : base ≠ []) (root : base ≠ "/".toList) (rest : Str) :
    belowBase base (base ++ '/' :: rest) = .some ('/' :: rest) := by
  have covered : (toLower base).isPrefixOf (toLower (base ++ '/' :: rest)) = true := by
    rw [toLower, toLower, List.map_append]
    exact List.isPrefixOf_iff_prefix.mpr (List.prefix_append _ _)
  unfold belowBase
  rw [if_neg (not_or.mpr ⟨some, root⟩), if_pos covered, List.drop_left]
  rfl

/-- A path that is none of the fixed ones. -/
theorem parseRoute_below {state : ServerState} {path remaining : Str} (health : path ≠ "/health".toList) (root : path ≠ "/".toList)
    (below : belowBase state.basePath path = some ('/' :: remaining)) (named : remaining ≠ [])
    (document : remaining ≠ "$metadata".toList) : parseRoute state path = resourceRoute remaining := by
  have whole : '/' :: remaining ≠ "/".toList := fun same => named (by simpa using same)
  have other : '/' :: remaining ≠ "/$metadata".toList := fun same => document (by simpa using same)
  unfold parseRoute
  rw [if_neg health, if_neg root, below]
  dsimp only
  rw [if_neg whole, if_neg other]
  rfl

/-- Below the root, a closing slash keeps any name apart from the fixed routes. -/
theorem parseRoute_root {name : Str} (addressable : Addressable name) (state : ServerState) (root : state.basePath = "/".toList) :
    parseRoute state ('/' :: (name ++ ['/'])) = { entity := name } := by
  have ends : ('/' :: (name ++ ['/'])).getLast? = some '/' := by
    rw [← List.cons_append, List.getLast?_concat]
  have whole : '/' :: (name ++ ['/']) ≠ "/".toList := by
    intro same
    have short := congrArg List.length same
    simp at short
  have other : ∀ fixed : Str, fixed.getLast? ≠ some '/' → '/' :: (name ++ ['/']) ≠ fixed := by
    rintro fixed apart rfl
    exact apart ends
  have below : belowBase state.basePath ('/' :: (name ++ ['/'])) = some ('/' :: (name ++ ['/'])) := by
    rw [belowBase, if_pos (.inr root)]
  rw [parseRoute_below (other _ (by decide)) whole below (by simp)]
  · exact (resourceRoute_collection addressable.2).2
  · intro same
    exact other "/$metadata".toList (by decide) (congrArg (List.cons '/') same)

/-- A GET request that names an exposed entity, with options that parse. -/
structure Reaches (state : ServerState) (catalog : Catalog) (request : HttpRequest) (binding : EntityBinding)
    (built : EdmEntity) (query : ODataQuery) : Prop where
  reads : request.method = "GET".toList
  authorized : rejected state request = none
  admitted : ¬ (0 < state.maxConcurrentQueries ∧ state.maxConcurrentQueries ≤ state.activeQueries)
  resource : (parseRoute state request.path).health = false ∧ (parseRoute state request.path).serviceDoc = false ∧
    (parseRoute state request.path).metadata = false
  named : (parseRoute state request.path).entity ≠ []
  found : findBinding state.bindings (parseRoute state request.path).entity = some binding
  supported : unsupportedOption request.query = none
  parsed : parseOptions state.maxFilterDepth binding.name request.query = .ok query
  resolved : buildEntity catalog binding = .ok built

variable {state : ServerState} {catalog : Catalog} {request : HttpRequest} {binding : EntityBinding} {built : EdmEntity}
  {query : ODataQuery}

theorem Reaches.handles (reaches : Reaches state catalog request binding built query) (read : BodyReader) :
    handleODataRequest read state catalog request =
      if (parseRoute state request.path).keys ≠ [] then
        keyLookup state (applyColumnPolicy built binding) query (parseRoute state request.path).keys
      else collection state request (applyColumnPolicy built binding) query := by
  obtain ⟨health, service, metadata⟩ := reaches.resource
  have reads : ¬ writing request := by
    unfold writing
    rw [reaches.reads]
    decide
  have exposed : state.bindings ≠ [] := by
    intro none
    have found := reaches.found
    rw [none] at found
    cases found
  unfold handleODataRequest
  rw [reaches.authorized]
  simp only [reads, health, service, metadata, reaches.named, exposed, reaches.found, reaches.admitted, false_and, ite_false,
    Bool.false_eq_true]
  unfold entityRequest
  rw [reaches.supported, reaches.parsed, reaches.resolved]
  simp only [catching, reads, ite_false]

/-- A server that exposes the binding alone, under the base path `/`. -/
def soleState (binding : EntityBinding) : ServerState where
  bindings := [binding]
  basePath := "/".toList
  maxResponseBytes := -1

def soleRequest (binding : EntityBinding) : HttpRequest where
  method := "GET".toList
  path := '/' :: (binding.name ++ ['/'])

theorem sole_reaches {catalog : Catalog} {binding : EntityBinding} {built : EdmEntity}
    (addressable : Addressable binding.name) (resolved : buildEntity catalog binding = .ok built) :
    Reaches (soleState binding) catalog (soleRequest binding) binding built { entitySet := binding.name } ∧
      (parseRoute (soleState binding) (soleRequest binding).path).keys = [] := by
  have route : parseRoute (soleState binding) (soleRequest binding).path = { entity := binding.name } :=
    parseRoute_root addressable _ rfl
  refine ⟨⟨rfl, by simp [rejected, soleState, soleRequest], by simp [soleState], ?_, ?_, ?_, rfl, rfl, resolved⟩, ?_⟩
  · rw [route]
    exact ⟨rfl, rfl, rfl⟩
  · rw [route]
    exact addressable.1
  · rw [route]
    simp [findBinding, soleState, sameName]
  · rw [route]

theorem sole_collection {binding : EntityBinding} {entity : EdmEntity} {compiled : CompiledQuery}
    (done : compileStatements { entitySet := binding.name } entity 10000 = .ok (compiled, none)) :
    collection (soleState binding) (soleRequest binding) entity { entitySet := binding.name } =
      executing compiled.sql
        (finishCollection (soleState binding) (soleRequest binding) entity { entitySet := binding.name } false none (-1)) := by
  have unpaged : pagedQuery (soleState binding) { entitySet := binding.name } = ({ entitySet := binding.name }, false) :=
    if_neg fun both => absurd both.1 (lt_irrefl 0)
  unfold collection
  rw [unpaged]
  dsimp only
  have capped : (soleState binding).maxTop = 10000 := rfl
  rw [capped, done]
  rfl

end DuckdbOdata.Routes
