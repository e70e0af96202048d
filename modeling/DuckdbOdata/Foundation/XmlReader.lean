import DuckdbOdata.Foundation.Text

/-! A reader of element-only XML: tags with quoted attributes, the five predefined
references, blanks between tags and processing instructions. A character scanner
yields the tags, and a stack of open elements makes a tree of them. -/

namespace Xml
open Text

inductive Node
  | element (name : Str) (attributes : List (Str × Str)) (children : List Node)

namespace Node

def name : Node → Str
  | element name _ _ => name

def attributes : Node → List (Str × Str)
  | element _ attributes _ => attributes

def children : Node → List Node
  | element _ _ children => children

def childrenNamed (node : Node) (name : Str) : List Node := node.children.filter (·.name = name)

def valueOf (node : Node) (key : Str) : Option Str := (node.attributes.find? (·.1 = key)).map (·.2)

mutual
/-- The elements and the names of their attributes, without the values. -/
def shape : Node → Node
  | element name attributes children => element name (attributes.map fun (key, _) => (key, [])) (shapes children)

def shapes : List Node → List Node
  | [] => []
  | node :: others => shape node :: shapes others
end

theorem shapes_map (nodes : List Node) : shapes nodes = nodes.map shape := by
  induction nodes with
  | nil => rfl
  | cons node others ih => rw [shapes, ih, List.map_cons]

end Node

inductive Tag
  | opening (name : Str) (attributes : List (Str × Str))
  | empty (name : Str) (attributes : List (Str × Str))
  | closing (name : Str)
deriving DecidableEq

/-- The text of an attribute value, its references resolved. -/
def decode : Str → Option Str
  | [] => some []
  | '&' :: 'a' :: 'm' :: 'p' :: ';' :: rest => (decode rest).map ('&' :: ·)
  | '&' :: 'l' :: 't' :: ';' :: rest => (decode rest).map ('<' :: ·)
  | '&' :: 'g' :: 't' :: ';' :: rest => (decode rest).map ('>' :: ·)
  | '&' :: 'q' :: 'u' :: 'o' :: 't' :: ';' :: rest => (decode rest).map ('"' :: ·)
  | '&' :: 'a' :: 'p' :: 'o' :: 's' :: ';' :: rest => (decode rest).map ('\'' :: ·)
  | c :: rest => if c = '&' then none else (decode rest).map (c :: ·)

def isBlank (c : Char) : Bool := c = ' ' || c = '\t' || c = '\n' || c = '\r'

def isNameChar (c : Char) : Bool := c.isAlphanum || c = ':' || c = '_' || c = '-' || c = '.'

/-- Where the scanner is. `closed` is right after an attribute value. -/
inductive Position
  | content
  | opened
  | instruction (ending : Bool)
  | closing (name : Str)
  | naming (name : Str)
  | inside (name : Str) (attributes : List (Str × Str))
  | key (name : Str) (attributes : List (Str × Str)) (key : Str)
  | equals (name : Str) (attributes : List (Str × Str)) (key : Str)
  | value (name : Str) (attributes : List (Str × Str)) (key : Str) (raw : Str)
  | closed (name : Str) (attributes : List (Str × Str))
  | slash (name : Str) (attributes : List (Str × Str))
deriving DecidableEq

/-- The end of a tag, or a blank before the next attribute. -/
def afterPart (name : Str) (attributes : List (Str × Str)) (c : Char) : Option (Position × List Tag) :=
  if c = '>' then some (.content, [.opening name attributes])
  else if c = '/' then some (.slash name attributes, [])
  else if isBlank c then some (.inside name attributes, [])
  else none

/-- One character. -/
def step : Position → Char → Option (Position × List Tag)
  | .content, c => if c = '<' then some (.opened, []) else if isBlank c then some (.content, []) else none
  | .opened, c =>
    if c = '/' then some (.closing [], [])
    else if c = '?' then some (.instruction false, [])
    else if isNameChar c then some (.naming [c], [])
    else none
  | .instruction ending, c => some (if ending && c = '>' then .content else .instruction (c = '?'), [])
  | .closing name, c =>
    if c = '>' then some (.content, [.closing name])
    else if isNameChar c then some (.closing (name ++ [c]), [])
    else none
  | .naming name, c => if isNameChar c then some (.naming (name ++ [c]), []) else afterPart name [] c
  | .inside name attributes, c => if isNameChar c then some (.key name attributes [c], []) else afterPart name attributes c
  | .key name attributes key, c =>
    if c = '=' then some (.equals name attributes key, [])
    else if isNameChar c then some (.key name attributes (key ++ [c]), [])
    else none
  | .equals name attributes key, c =>
    if c = '"' ∧ key ∉ attributes.map Prod.fst then some (.value name attributes key [], []) else none
  | .value name attributes key raw, c =>
    if c = '"' then (decode raw).map fun value => (.closed name (attributes ++ [(key, value)]), [])
    else if c = '<' then none
    else some (.value name attributes key (raw ++ [c]), [])
  | .closed name attributes, c => afterPart name attributes c
  | .slash name attributes, c => if c = '>' then some (.content, [.empty name attributes]) else none

/-- The position after a text, and the tags in it. -/
def scan : Position → Str → Option (Position × List Tag)
  | position, [] => some (position, [])
  | position, c :: rest => do
    let (next, tags) ← step position c
    let (final, more) ← scan next rest
    some (final, tags ++ more)

theorem scan_append {start middle final : Position} {first last : Str} {tags more : List Tag}
    (one : scan start first = some (middle, tags)) (other : scan middle last = some (final, more)) :
    scan start (first ++ last) = some (final, tags ++ more) := by
  induction first generalizing start tags with
  | nil =>
    cases one
    exact other
  | cons c first ih =>
    simp only [scan, Option.bind_eq_bind, Option.bind_eq_some_iff, Option.some.injEq, Prod.exists, Prod.mk.injEq] at one
    obtain ⟨next, here, stepped, last, later, scanned, rfl, rfl⟩ := one
    rw [List.cons_append, scan, stepped]
    simp [ih scanned]

/-- The raw text of an attribute value that stands for `value`. -/
structure Encodes (raw value : Str) : Prop where
  decoded : decode raw = some value
  plain : ∀ c ∈ raw, c ≠ '"' ∧ c ≠ '<'

private theorem scan_raw (name : Str) (attributes : List (Str × Str)) (key : Str) {raw : Str} (plain : ∀ c ∈ raw, c ≠ '"' ∧ c ≠ '<')
    (before : Str) : scan (.value name attributes key before) raw = some (.value name attributes key (before ++ raw), []) := by
  induction raw generalizing before with
  | nil => simp [scan]
  | cons c raw ih =>
    obtain ⟨quote, angle⟩ := plain c List.mem_cons_self
    have stepped : step (.value name attributes key before) c = some (.value name attributes key (before ++ [c]), []) := by
      rw [step, if_neg quote, if_neg angle]
    rw [scan, stepped]
    simp [ih fun d member => plain d (List.mem_cons_of_mem _ member)]

/-- A value up to its closing quote. -/
theorem scan_value {name key raw value : Str} {attributes : List (Str × Str)} (encodes : Encodes raw value) :
    scan (.value name attributes key []) (raw ++ ['"']) = some (.closed name (attributes ++ [(key, value)]), []) := by
  have closing : scan (.value name attributes key raw) ['"'] = some (.closed name (attributes ++ [(key, value)]), []) := by
    simp [scan, step, encodes.decoded]
  exact scan_append (scan_raw name attributes key encodes.plain []) closing

/-- The open elements, each with its children so far, and the finished trees. -/
structure Building where
  stack : List (Str × List (Str × Str) × List Node) := []
  roots : List Node := []

/-- Adds finished nodes to the innermost open element. -/
def Building.place (building : Building) (nodes : List Node) : Building :=
  match building.stack with
  | [] => { building with roots := building.roots ++ nodes }
  | (name, attributes, children) :: outer => { building with stack := (name, attributes, children ++ nodes) :: outer }

def Building.next (building : Building) : Tag → Option Building
  | .opening name attributes => some { building with stack := (name, attributes, []) :: building.stack }
  | .empty name attributes => some (building.place [.element name attributes []])
  | .closing name =>
    match building.stack with
    | [] => none
    | (open', attributes, children) :: outer =>
      if open' = name then some ({ building with stack := outer }.place [.element name attributes children]) else none

/-- Reads a document with a single root. -/
def read (text : Str) : Option Node := do
  let (position, tags) ← scan .content text
  let built ← tags.foldlM Building.next {}
  match position, built with
  | .content, ⟨[], [root]⟩ => some root
  | _, _ => none

/-- The text between tags that stands for `nodes`. -/
def Represents (text : Str) (nodes : List Node) : Prop :=
  ∃ tags, scan .content text = some (.content, tags) ∧
    ∀ building : Building, tags.foldlM Building.next building = some (building.place nodes)

theorem Building.place_nil (building : Building) : building.place [] = building := by
  unfold place
  split
  · rw [List.append_nil]
  next same =>
    obtain ⟨stack, roots⟩ := building
    simp only at same
    subst same
    simp

theorem Building.place_place (building : Building) (first last : List Node) :
    (building.place first).place last = building.place (first ++ last) := by
  obtain ⟨stack, roots⟩ := building
  cases stack with
  | nil => simp [place]
  | cons frame outer => simp [place]

theorem Represents.nil : Represents [] [] := ⟨[], rfl, fun building => by rw [building.place_nil]; rfl⟩

theorem Represents.append {first last : Str} {nodes more : List Node} (one : Represents first nodes)
    (other : Represents last more) : Represents (first ++ last) (nodes ++ more) := by
  obtain ⟨tags, scanned, built⟩ := one
  obtain ⟨tags', scanned', built'⟩ := other
  refine ⟨tags ++ tags', scan_append scanned scanned', fun building => ?_⟩
  rw [List.foldlM_append, built, Option.bind_eq_bind, Option.bind_some, built', Building.place_place]

theorem Represents.flatMap {α : Type} {print : α → Str} {node : α → List Node} (items : List α)
    (each : ∀ item ∈ items, Represents (print item) (node item)) :
    Represents (items.flatMap print) (items.flatMap node) := by
  induction items with
  | nil => exact .nil
  | cons item items ih =>
    exact (each item List.mem_cons_self).append (ih fun other member => each other (List.mem_cons_of_mem _ member))

theorem Represents.empty {text name : Str} {attributes : List (Str × Str)}
    (scanned : scan .content text = some (.content, [.empty name attributes])) :
    Represents text [.element name attributes []] :=
  ⟨_, scanned, fun _ => rfl⟩

/-- An element around its children. -/
theorem Represents.element {front inner back name : Str} {attributes : List (Str × Str)} {nodes : List Node}
    (start : scan .content front = some (.content, [.opening name attributes])) (content : Represents inner nodes)
    (finish : scan .content back = some (.content, [.closing name])) :
    Represents (front ++ inner ++ back) [.element name attributes nodes] := by
  obtain ⟨tags, scanned, built⟩ := content
  refine ⟨_, scan_append (scan_append start scanned) finish, fun building => ?_⟩
  rw [List.foldlM_append, List.foldlM_append]
  simp [Building.next, built, Building.place]

theorem Represents.read {text : Str} {root : Node} (represents : Represents text [root]) : read text = some root := by
  obtain ⟨tags, scanned, built⟩ := represents
  unfold Xml.read
  rw [scanned]
  simp [built, Building.place]

/-- Text without tags may stand before a document. -/
theorem Represents.after {front text : Str} {nodes : List Node} (scanned : scan .content front = some (.content, []))
    (represents : Represents text nodes) : Represents (front ++ text) nodes := by
  have blank : Represents front [] := ⟨[], scanned, fun building => by rw [building.place_nil]; rfl⟩
  exact blank.append represents

end Xml
