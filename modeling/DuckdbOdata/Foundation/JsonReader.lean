import DuckdbOdata.Foundation.Text
import Mathlib.Data.List.Induction

/-! A reader of JSON texts: a machine that takes one character a step and keeps
the open arrays and objects on a stack. Strings are byte strings; a `\u` escape
stands for the UTF-8 bytes of its code unit, and surrogates are not paired. -/

namespace Json
open Text

/-- A number is kept as it is written. -/
inductive Value
  | null
  | boolean (value : Bool)
  | number (text : Str)
  | string (value : Str)
  | array (items : List Value)
  | object (members : List (Str × Value))

def isBlank (c : Char) : Bool := c = ' ' || c = '\t' || c = '\n' || c = '\r'

/-- The part of a number that was read last. -/
inductive Part
  | minus | zero | whole | point | fraction | exponent | sign | power
deriving DecidableEq

def Part.complete : Part → Bool
  | .zero | .whole | .fraction | .power => true
  | _ => false

/-- The part that the first character of a number belongs to. -/
def Part.first (c : Char) : Option Part :=
  if c = '-' then some .minus else if c = '0' then some .zero else if c.isDigit then some .whole else none

def Part.next (part : Part) (c : Char) : Option Part :=
  match part with
  | .minus => if c = '0' then some .zero else if c.isDigit then some .whole else none
  | .zero => if c = '.' then some .point else if c = 'e' ∨ c = 'E' then some .exponent else none
  | .whole =>
    if c.isDigit then some .whole
    else if c = '.' then some .point
    else if c = 'e' ∨ c = 'E' then some .exponent
    else none
  | .point => if c.isDigit then some .fraction else none
  | .fraction => if c.isDigit then some .fraction else if c = 'e' ∨ c = 'E' then some .exponent else none
  | .exponent => if c = '+' ∨ c = '-' then some .sign else if c.isDigit then some .power else none
  | .sign | .power => if c.isDigit then some .power else none

/-- The last part of a number, if the text is the start of one. -/
def lastPart : Str → Option Part
  | [] => none
  | c :: rest => do
    let part ← Part.first c
    rest.foldlM Part.next part

def isNumber (text : Str) : Bool := (lastPart text).any Part.complete

/-- Where a string stands after a backslash. -/
inductive Escape
  | plain
  | started
  | unit (digits : List Nat)
deriving DecidableEq

def hexDigit (c : Char) : Option Nat :=
  if '0' ≤ c ∧ c ≤ '9' then some (c.toNat - 48)
  else if 'a' ≤ c ∧ c ≤ 'f' then some (c.toNat - 87)
  else if 'A' ≤ c ∧ c ≤ 'F' then some (c.toNat - 55)
  else none

def utf8 (unit : Nat) : Str :=
  if unit < 128 then [Char.ofNat unit]
  else if unit < 2048 then [Char.ofNat (192 + unit / 64), Char.ofNat (128 + unit % 64)]
  else [Char.ofNat (224 + unit / 4096), Char.ofNat (128 + unit / 64 % 64), Char.ofNat (128 + unit % 64)]

def escaped (c : Char) : Option Str :=
  if c = '"' ∨ c = '\\' ∨ c = '/' then some [c]
  else if c = 'b' then some [Char.ofNat 8]
  else if c = 'f' then some [Char.ofNat 12]
  else if c = 'n' then some ['\n']
  else if c = 'r' then some ['\r']
  else if c = 't' then some ['\t']
  else none

/-- One character inside a string; `none` for an unescaped control character and
for an unknown escape. -/
def stringStep : Escape → Char → Option (Str × Escape)
  | .plain, c => if c = '\\' then some ([], .started) else if c.toNat < 32 then none else some ([c], .plain)
  | .started, c => if c = 'u' then some ([], .unit []) else (escaped c).map fun value => (value, .plain)
  | .unit digits, c =>
    match hexDigit c with
    | none => none
    | some digit =>
      if digits.length < 3 then some ([], .unit (digits ++ [digit]))
      else some (utf8 ((digits ++ [digit]).foldl (fun unit digit => unit * 16 + digit) 0), .plain)

/-- The characters of a string up to the first quote outside an escape: its value,
and the text after the quote. -/
def readStringFrom (escape : Escape) : Str → Option (Str × Str)
  | [] => none
  | c :: rest =>
    if c = '"' ∧ escape = .plain then some ([], rest)
    else do
      let (value, next) ← stringStep escape c
      let (more, after) ← readStringFrom next rest
      some (value ++ more, after)

/-- A string from its opening quote, and the text after its closing quote. -/
def readString : Str → Option (Str × Str)
  | [] => none
  | c :: rest => if c = '"' then readStringFrom .plain rest else none

/-- An open array with its items so far, or an open object with its members so
far and the name of the member whose value is being read. -/
inductive Frame
  | array (items : List Value)
  | object (members : List (Str × Value)) (name : Str)

/-- Where the machine stands. `closable` says that the array or object around it
is still empty and may end here. A string with `members` is a name. -/
inductive Position
  | value (closable : Bool)
  | name (members : List (Str × Value)) (closable : Bool)
  | colon (members : List (Str × Value)) (name : Str)
  | string (members : Option (List (Str × Value))) (read : Str) (escape : Escape)
  | number (read : Str) (part : Part)
  | word (missing : Str) (value : Value)
  | closed (value : Value)

structure State where
  stack : List Frame := []
  position : Position := .value false

def beginValue (stack : List Frame) (c : Char) : Option State :=
  if c = '"' then some ⟨stack, .string none [] .plain⟩
  else if c = '[' then some ⟨.array [] :: stack, .value true⟩
  else if c = '\x7b' then some ⟨stack, .name [] true⟩
  else if c = 't' then some ⟨stack, .word "rue".toList (.boolean true)⟩
  else if c = 'f' then some ⟨stack, .word "alse".toList (.boolean false)⟩
  else if c = 'n' then some ⟨stack, .word "ull".toList .null⟩
  else (Part.first c).map fun part => ⟨stack, .number [c] part⟩

/-- The character after a value. -/
def afterValue (stack : List Frame) (value : Value) (c : Char) : Option State :=
  if isBlank c then some ⟨stack, .closed value⟩
  else match stack with
    | [] => none
    | .array items :: outer =>
      if c = ',' then some ⟨.array (items ++ [value]) :: outer, .value false⟩
      else if c = ']' then some ⟨outer, .closed (.array (items ++ [value]))⟩
      else none
    | .object members name :: outer =>
      if c = ',' then some ⟨outer, .name (members ++ [(name, value)]) false⟩
      else if c = '\x7d' then some ⟨outer, .closed (.object (members ++ [(name, value)]))⟩
      else none

/-- A value, or the end of an empty array. -/
def inValue (stack : List Frame) (closable : Bool) (c : Char) : Option State :=
  if isBlank c then some ⟨stack, .value closable⟩
  else if closable ∧ c = ']' then
    match stack with
    | .array [] :: outer => some ⟨outer, .closed (.array [])⟩
    | _ => none
  else beginValue stack c

def inName (stack : List Frame) (members : List (Str × Value)) (closable : Bool) (c : Char) : Option State :=
  if isBlank c then some ⟨stack, .name members closable⟩
  else if c = '"' then some ⟨stack, .string (some members) [] .plain⟩
  else if closable ∧ c = '\x7d' then some ⟨stack, .closed (.object members)⟩
  else none

def inColon (stack : List Frame) (members : List (Str × Value)) (name : Str) (c : Char) : Option State :=
  if isBlank c then some ⟨stack, .colon members name⟩
  else if c = ':' then some ⟨.object members name :: stack, .value false⟩
  else none

/-- The end of a string. -/
def closeString (stack : List Frame) (members : Option (List (Str × Value))) (read : Str) : State :=
  match members with
  | none => ⟨stack, .closed (.string read)⟩
  | some members => ⟨stack, .colon members read⟩

def inString (stack : List Frame) (members : Option (List (Str × Value))) (read : Str) (escape : Escape) (c : Char) : Option State :=
  if c = '"' ∧ escape = .plain then some (closeString stack members read)
  else (stringStep escape c).map fun (value, next) => ⟨stack, .string members (read ++ value) next⟩

def inNumber (stack : List Frame) (read : Str) (part : Part) (c : Char) : Option State :=
  match part.next c with
  | some next => some ⟨stack, .number (read ++ [c]) next⟩
  | none => if part.complete then afterValue stack (.number read) c else none

def inWord (stack : List Frame) (missing : Str) (value : Value) (c : Char) : Option State :=
  match missing with
  | [] => none
  | d :: rest => if c ≠ d then none else if rest = [] then some ⟨stack, .closed value⟩ else some ⟨stack, .word rest value⟩

/-- One character. -/
def step : State → Char → Option State
  | ⟨stack, .value closable⟩, c => inValue stack closable c
  | ⟨stack, .name members closable⟩, c => inName stack members closable c
  | ⟨stack, .colon members name⟩, c => inColon stack members name c
  | ⟨stack, .string members read escape⟩, c => inString stack members read escape c
  | ⟨stack, .number read part⟩, c => inNumber stack read part c
  | ⟨stack, .word missing value⟩, c => inWord stack missing value c
  | ⟨stack, .closed value⟩, c => afterValue stack value c

def run (state : State) (text : Str) : Option State := text.foldlM step state

/-- The value of a whole text. -/
def read (text : Str) : Option Value :=
  match run {} text with
  | some ⟨[], .closed value⟩ => some value
  | some ⟨[], .number text part⟩ => if part.complete then some (.number text) else none
  | _ => none

example : read "\x7b\"a\": [1.5e3, \"\\u0041\\n\", \x7b\x7d]\x7d".toList =
    some (.object [(['a'], .array [.number "1.5e3".toList, .string ['A', '\n'], .object []])]) := rfl

theorem run_cons (state : State) (c : Char) (rest : Str) : run state (c :: rest) = (step state c).bind fun next => run next rest := rfl

theorem run_append (state : State) (first last : Str) : run state (first ++ last) = (run state first).bind fun next => run next last :=
  List.foldlM_append

theorem run_then {start middle : State} {first : Str} (one : run start first = some middle) (last : Str) :
    run start (first ++ last) = run middle last := by
  rw [run_append, one]
  rfl

/-- The text between quotes that stands for `value`. -/
def Spells (raw value : Str) : Prop :=
  ∀ stack members before,
    run ⟨stack, .string members before .plain⟩ raw = some ⟨stack, .string members (before ++ value) .plain⟩

theorem Spells.nil : Spells [] [] := fun stack members before => by rw [List.append_nil]; rfl

theorem Spells.append {first last value more : Str} (one : Spells first value) (other : Spells last more) :
    Spells (first ++ last) (value ++ more) := by
  intro stack members before
  rw [run_then (one stack members before), other, List.append_assoc]

theorem Spells.flatMap {α : Type} {print value : α → Str} {items : List α} (each : ∀ item ∈ items, Spells (print item) (value item)) :
    Spells (items.flatMap print) (items.flatMap value) := by
  induction items with
  | nil => exact .nil
  | cons item items ih =>
    exact (each item List.mem_cons_self).append (ih fun other member => each other (List.mem_cons_of_mem _ member))

private theorem step_string (stack : List Frame) (members : Option (List (Str × Value))) (before : Str) {escape next : Escape}
    {c : Char} {value : Str} (stepped : stringStep escape c = some (value, next)) (inside : c ≠ '"' ∨ escape ≠ .plain) :
    step ⟨stack, .string members before escape⟩ c = some ⟨stack, .string members (before ++ value) next⟩ := by
  rw [step, inString, if_neg (fun both => inside.elim (fun other => other both.1) fun other => other both.2), stepped]
  rfl

theorem Spells.char {c : Char} (quote : c ≠ '"') (backslash : c ≠ '\\') (printable : 32 ≤ c.toNat) : Spells [c] [c] := by
  intro stack members before
  have copied : stringStep .plain c = some ([c], .plain) := by
    rw [stringStep, if_neg backslash, if_neg (Nat.not_lt.mpr printable)]
  rw [run_cons, step_string stack members before copied (.inl quote)]
  rfl

theorem Spells.escape {c : Char} {value : Str} (known : escaped c = some value) : Spells ['\\', c] value := by
  intro stack members before
  have other : c ≠ 'u' := by
    rintro rfl
    cases known
  have decoded : stringStep .started c = some (value, .plain) := by
    rw [stringStep, if_neg other, known]
    rfl
  rw [run_cons, step_string stack members before rfl (.inl (by decide)), Option.bind_some, List.append_nil, run_cons,
    step_string stack members before decoded (.inr (by decide))]
  rfl

private theorem run_digit (stack : List Frame) (members : Option (List (Str × Value))) (before : Str) {digits : List Nat}
    {c : Char} {n : Nat} (digit : hexDigit c = some n) (short : digits.length < 3) (rest : Str) :
    run ⟨stack, .string members before (.unit digits)⟩ (c :: rest) =
      run ⟨stack, .string members before (.unit (digits ++ [n]))⟩ rest := by
  have stepped : stringStep (.unit digits) c = some ([], .unit (digits ++ [n])) := by
    simp [stringStep, digit, short]
  rw [run_cons, step_string stack members before stepped (.inr (by simp)), Option.bind_some, List.append_nil]

/-- A `\u` escape with its four digits. -/
theorem Spells.unit {a b c d : Char} {w x y z : Nat} (one : hexDigit a = some w) (two : hexDigit b = some x)
    (three : hexDigit c = some y) (four : hexDigit d = some z) :
    Spells ['\\', 'u', a, b, c, d] (utf8 (((w * 16 + x) * 16 + y) * 16 + z)) := by
  intro stack members before
  have last : stringStep (.unit [w, x, y]) d = some (utf8 (((w * 16 + x) * 16 + y) * 16 + z), .plain) := by
    simp [stringStep, four]
  rw [run_cons, step_string stack members before rfl (.inl (by decide)), Option.bind_some, List.append_nil,
    run_cons, step_string stack members before rfl (.inr (by decide)), Option.bind_some, List.append_nil,
    run_digit stack members before one (by decide), run_digit stack members before two (by simp),
    run_digit stack members before three (by simp), run_cons]
  simp only [List.nil_append, List.cons_append]
  rw [step_string stack members before last (.inr (by simp))]
  rfl

/-- What one character of a string can be written as. -/
inductive Piece : Str → Str → Prop
  | char {c} : c ≠ '"' → c ≠ '\\' → 32 ≤ c.toNat → Piece [c] [c]
  | escape {c value} : escaped c = some value → Piece ['\\', c] value
  | unit {a b c d w x y z} : hexDigit a = some w → hexDigit b = some x → hexDigit c = some y → hexDigit d = some z →
      Piece ['\\', 'u', a, b, c, d] (utf8 (((w * 16 + x) * 16 + y) * 16 + z))

theorem Piece.spells {raw value : Str} (piece : Piece raw value) : Spells raw value := by
  cases piece with
  | char quote backslash printable => exact .char quote backslash printable
  | escape known => exact .escape known
  | unit one two three four => exact .unit one two three four

private theorem readStringFrom_step {escape next : Escape} {c : Char} {value : Str} (stepped : stringStep escape c = some (value, next))
    (inside : c ≠ '"' ∨ escape ≠ .plain) (rest : Str) :
    readStringFrom escape (c :: rest) = (readStringFrom next rest).map fun read => (value ++ read.1, read.2) := by
  rw [readStringFrom, if_neg (fun both => inside.elim (fun other => other both.1) fun other => other both.2), stepped]
  show (readStringFrom next rest).bind _ = _
  cases readStringFrom next rest <;> rfl

/-- A piece is read whatever follows it. -/
theorem Piece.reads {raw value : Str} (piece : Piece raw value) (rest : Str) :
    readStringFrom .plain (raw ++ rest) = (readStringFrom .plain rest).map fun read => (value ++ read.1, read.2) := by
  cases piece with
  | @char c quote backslash printable =>
    have copied : stringStep .plain c = some ([c], .plain) := by
      rw [stringStep, if_neg backslash, if_neg (Nat.not_lt.mpr printable)]
    exact readStringFrom_step copied (.inl quote) rest
  | @escape c value known =>
    have other : c ≠ 'u' := by
      rintro rfl
      cases known
    have decoded : stringStep .started c = some (value, .plain) := by
      rw [stringStep, if_neg other, known]
      rfl
    rw [List.cons_append, readStringFrom_step rfl (.inl (by decide)), List.singleton_append,
      readStringFrom_step decoded (.inr (by decide)), Option.map_map]
    rfl
  | @unit a b c d w x y z one two three four =>
    have digit : ∀ {digits : List Nat} {c : Char} {n : Nat}, hexDigit c = some n → digits.length < 3 →
        stringStep (.unit digits) c = some ([], .unit (digits ++ [n])) := fun digit short => by simp [stringStep, digit, short]
    have last : stringStep (.unit [w, x, y]) d = some (utf8 (((w * 16 + x) * 16 + y) * 16 + z), .plain) := by
      simp [stringStep, four]
    simp only [List.cons_append, List.nil_append]
    rw [readStringFrom_step rfl (.inl (by decide)), readStringFrom_step rfl (.inr (by decide)),
      readStringFrom_step (digit one (by decide)) (.inr (by decide)), readStringFrom_step (digit two (by simp)) (.inr (by simp)),
      readStringFrom_step (digit three (by simp)) (.inr (by simp))]
    simp only [List.nil_append, List.cons_append]
    rw [readStringFrom_step last (.inr (by simp))]
    simp only [Option.map_map]
    rfl

/-- Text that needs no escape. -/
theorem Spells.plain {text : Str} (plain : ∀ c ∈ text, c ≠ '"' ∧ c ≠ '\\' ∧ 32 ≤ c.toNat) : Spells text text := by
  have spells : Spells (text.flatMap fun c => [c]) (text.flatMap fun c => [c]) := by
    apply Spells.flatMap
    intro c member
    obtain ⟨quote, backslash, printable⟩ := plain c member
    exact .char quote backslash printable
  rwa [List.flatMap_singleton'] at spells

/-- The text is read as `value`, whatever follows it. -/
def Closes (text : Str) (value : Value) : Prop :=
  ∀ stack closable, run ⟨stack, .value closable⟩ text = some ⟨stack, .closed value⟩

def Delimits (c : Char) : Prop := c = ',' ∨ c = ']' ∨ c = '\x7d'

/-- The text is read as `value` before a delimiter. -/
def Reads (text : Str) (value : Value) : Prop :=
  ∀ stack closable c rest, Delimits c → run ⟨stack, .value closable⟩ (text ++ c :: rest) = run ⟨stack, .closed value⟩ (c :: rest)

theorem Closes.reads {text : Str} {value : Value} (closes : Closes text value) : Reads text value :=
  fun stack closable c rest _ => run_then (closes stack closable) (c :: rest)

theorem Closes.read {text : Str} {value : Value} (closes : Closes text value) : read text = some value := by
  unfold Json.read
  rw [closes]

/-- A value that begins with its first character, in any array or object. -/
theorem step_value {stack : List Frame} {closable : Bool} {c : Char} (solid : isBlank c = false) (other : c ≠ ']') :
    step ⟨stack, .value closable⟩ c = beginValue stack c := by
  show inValue stack closable c = _
  unfold inValue
  rw [if_neg (by simp [solid]), if_neg fun both => other both.2]

theorem run_closing (stack : List Frame) (members : Option (List (Str × Value))) {raw value : Str} (spells : Spells raw value)
    (rest : Str) : run ⟨stack, .string members [] .plain⟩ (raw ++ '"' :: rest) = run (closeString stack members value) rest := by
  rw [run_then (spells stack members []), List.nil_append, run_cons, step, inString, if_pos ⟨rfl, rfl⟩]
  rfl

theorem Closes.string {raw value : Str} (spells : Spells raw value) : Closes ('"' :: (raw ++ ['"'])) (.string value) := by
  intro stack closable
  rw [run_cons, step_value (by decide) (by decide)]
  exact run_closing stack none spells []

theorem Closes.null : Closes "null".toList .null := by
  intro stack closable
  rw [String.toList_ofList, run_cons, step_value (by decide) (by decide)]
  rfl

theorem Closes.boolean (value : Bool) : Closes (if value then "true".toList else "false".toList) (.boolean value) := by
  intro stack closable
  cases value
  · rw [if_neg (by decide), String.toList_ofList, run_cons, step_value (by decide) (by decide)]
    rfl
  · rw [if_pos rfl, String.toList_ofList, run_cons, step_value (by decide) (by decide)]
    rfl

theorem first_plain {c : Char} {part : Part} (first : Part.first c = some part) :
    isBlank c = false ∧ c ≠ ']' ∧ ∀ stack, beginValue stack c = some ⟨stack, .number [c] part⟩ := by
  have digit : c = '-' ∨ c.isDigit = true := by
    unfold Part.first at first
    split at first
    next minus => exact .inl minus
    split at first
    next zero => exact .inr (zero ▸ by decide)
    split at first
    next digit => exact .inr digit
    next => cases first
  have other : ∀ d, d ≠ '-' → d.isDigit = false → c ≠ d := by
    rintro d minus plain rfl
    rcases digit with same | same
    · exact minus same
    · rw [plain] at same
      cases same
  refine ⟨?_, other _ (by decide) (by decide), fun stack => ?_⟩
  · simp only [isBlank, Bool.or_eq_false_iff, decide_eq_false_iff_not]
    exact ⟨⟨⟨other _ (by decide) (by decide), other _ (by decide) (by decide)⟩, other _ (by decide) (by decide)⟩,
      other _ (by decide) (by decide)⟩
  · unfold beginValue
    rw [if_neg (other _ (by decide) (by decide)), if_neg (other _ (by decide) (by decide)),
      if_neg (other _ (by decide) (by decide)), if_neg (other _ (by decide) (by decide)),
      if_neg (other _ (by decide) (by decide)), if_neg (other _ (by decide) (by decide)), first]
    rfl

private theorem run_number (stack : List Frame) {rest : Str} {part last : Part} (parts : rest.foldlM Part.next part = some last)
    (before : Str) : run ⟨stack, .number before part⟩ rest = some ⟨stack, .number (before ++ rest) last⟩ := by
  induction rest generalizing part before with
  | nil =>
    cases parts
    rw [List.append_nil]
    rfl
  | cons c rest ih =>
    rw [List.foldlM_cons] at parts
    obtain ⟨next, stepped, parts⟩ := Option.bind_eq_some_iff.mp parts
    have here : step ⟨stack, .number before part⟩ c = some ⟨stack, .number (before ++ [c]) next⟩ := by
      rw [step, inNumber, stepped]
    rw [run_cons, here, Option.bind_some, ih parts, List.append_assoc]
    rfl

theorem next_delimiter {c : Char} (delimits : Delimits c) (part : Part) : part.next c = none := by
  rcases delimits with rfl | rfl | rfl <;> cases part <;> rfl

theorem Reads.number {text : Str} (number : isNumber text = true) : Reads text (.number text) := by
  intro stack closable c rest delimits
  obtain ⟨last, parts, complete⟩ := (Option.any_eq_true ..).mp number
  cases text with
  | nil => cases parts
  | cons d text =>
    obtain ⟨part, first, parts⟩ := Option.bind_eq_some_iff.mp parts
    obtain ⟨solid, other, begins⟩ := first_plain first
    have here : step ⟨stack, .number ([d] ++ text) last⟩ c = afterValue stack (.number (d :: text)) c := by
      rw [step, inNumber, next_delimiter delimits]
      exact if_pos complete
    rw [List.cons_append, run_cons, step_value solid other, begins, Option.bind_some, run_then (run_number stack parts [d]),
      run_cons, here]
    rfl

/-- One more character of a number. -/
theorem lastPart_concat {text : Str} {part : Part} (parts : lastPart text = some part) (c : Char) :
    lastPart (text ++ [c]) = part.next c := by
  cases text with
  | nil => cases parts
  | cons d text =>
    obtain ⟨first, started, parts⟩ := Option.bind_eq_some_iff.mp parts
    rw [List.cons_append, lastPart, started]
    simp [List.foldlM_append, parts]

/-- The decimal digits of a natural number, without leading zeros. -/
theorem lastPart_digits (n : Nat) : lastPart (Nat.toDigits 10 n) = some (if n = 0 then .zero else .whole) := by
  induction n using Nat.strongRecOn with
  | _ n ih =>
    have digit : (n % 10).digitChar.isDigit = true := by
      rw [Nat.isDigit_digitChar, decide_eq_true_eq]
      omega
    by_cases small : n < 10
    · rw [Nat.toDigits_of_lt_base small]
      have whole : n % 10 = n := Nat.mod_eq_of_lt small
      rw [whole] at digit
      by_cases zero : n = 0
      · subst zero
        rfl
      · have minus : n.digitChar ≠ '-' := by
          intro same
          rw [same] at digit
          cases digit
        simp [lastPart, Part.first, minus, zero, digit]
    · have before := ih (n / 10) (by omega)
      rw [if_neg (by omega)] at before
      rw [Nat.toDigits_of_base_le (by omega) (by omega), lastPart_concat before, if_neg (by omega)]
      simp [Part.next, digit]

/-- A sign before a number that has none. -/
theorem lastPart_minus {text : Str} {part : Part} (parts : lastPart text = some part) (unsigned : text.head? ≠ some '-') :
    lastPart ('-' :: text) = some part := by
  cases text with
  | nil => cases parts
  | cons c text =>
    have other : c ≠ '-' := fun same => unsigned (congrArg some same)
    obtain ⟨first, started, rest⟩ := Option.bind_eq_some_iff.mp parts
    have next : Part.minus.next c = some first := by
      rw [← started, Part.first, if_neg other]
      rfl
    have sign : Part.first '-' = some .minus := rfl
    rw [lastPart, sign]
    simp [next, rest]

/-- A fraction after whole digits. -/
theorem lastPart_fraction {whole fraction : Str} {part : Part} (parts : lastPart whole = some part) (ends : part = .zero ∨ part = .whole)
    (some : fraction ≠ []) (digits : ∀ c ∈ fraction, c.isDigit = true) : lastPart (whole ++ '.' :: fraction) = .some .fraction := by
  induction fraction using List.reverseRecOn with
  | nil => exact absurd rfl some
  | append_singleton fraction c ih =>
    have digit := digits c (by simp)
    by_cases none : fraction = []
    · subst none
      have point : lastPart (whole ++ ['.']) = .some .point := by
        rw [lastPart_concat parts]
        rcases ends with rfl | rfl <;> rfl
      have shape : whole ++ '.' :: ([] ++ [c]) = (whole ++ ['.']) ++ [c] := by simp
      rw [shape, lastPart_concat point]
      simp [Part.next, digit]
    · have before := ih none fun d member => digits d (by simp [member])
      have shape : whole ++ '.' :: (fraction ++ [c]) = (whole ++ '.' :: fraction) ++ [c] := by simp
      rw [shape, lastPart_concat before]
      simp [Part.next, digit]

theorem run_comma (stack : List Frame) (items : List Value) (value : Value) (rest : Str) :
    run ⟨.array items :: stack, .closed value⟩ (',' :: rest) = run ⟨.array (items ++ [value]) :: stack, .value false⟩ rest := rfl

theorem run_bracket (stack : List Frame) (items : List Value) (value : Value) (rest : Str) :
    run ⟨.array items :: stack, .closed value⟩ (']' :: rest) = run ⟨stack, .closed (.array (items ++ [value]))⟩ rest := rfl

theorem run_member (stack : List Frame) (members : List (Str × Value)) (name : Str) (value : Value) (rest : Str) :
    run ⟨.object members name :: stack, .closed value⟩ (',' :: rest) = run ⟨stack, .name (members ++ [(name, value)]) false⟩ rest := rfl

theorem run_brace (stack : List Frame) (members : List (Str × Value)) (name : Str) (value : Value) (rest : Str) :
    run ⟨.object members name :: stack, .closed value⟩ ('\x7d' :: rest) =
      run ⟨stack, .closed (.object (members ++ [(name, value)]))⟩ rest := rfl

/-- A name and its colon. -/
theorem run_name (stack : List Frame) (members : List (Str × Value)) (closable : Bool) {raw name : Str} (spells : Spells raw name)
    (rest : Str) : run ⟨stack, .name members closable⟩ ('"' :: (raw ++ '"' :: ':' :: rest)) =
      run ⟨.object members name :: stack, .value false⟩ rest := by
  have opened : step ⟨stack, .name members closable⟩ '"' = some ⟨stack, .string (some members) [] .plain⟩ := rfl
  rw [run_cons, opened, Option.bind_some, run_closing stack (some members) spells]
  rfl

section
variable {α : Type} {print : α → Str} {value : α → Value} {raw name : α → Str}

private theorem run_items (stack : List Frame) (done : List Value) (closable : Bool) (item : α) (others : List α)
    (each : ∀ other ∈ item :: others, Reads (print other) (value other)) (rest : Str) :
    run ⟨.array done :: stack, .value closable⟩ ([','].intercalate ((item :: others).map print) ++ ']' :: rest) =
      run ⟨stack, .closed (.array (done ++ (item :: others).map value))⟩ rest := by
  have here := each item List.mem_cons_self
  induction others generalizing item done closable with
  | nil =>
    simp only [List.map_cons, List.map_nil, List.intercalate_singleton]
    rw [here _ _ _ _ (.inr (.inl rfl)), run_bracket]
  | cons next others ih =>
    have later : ∀ other ∈ next :: others, Reads (print other) (value other) := fun other member =>
      each other (List.mem_cons_of_mem _ member)
    have tail := ih (done ++ [value item]) false next later (later next List.mem_cons_self)
    simp only [List.map_cons, List.intercalate_cons_cons, List.append_assoc, List.cons_append, List.nil_append] at tail ⊢
    rw [here _ _ _ _ (.inl rfl), run_comma, tail]

theorem Closes.array (items : List α) (each : ∀ item ∈ items, Reads (print item) (value item)) :
    Closes ('[' :: ([','].intercalate (items.map print) ++ [']'])) (.array (items.map value)) := by
  intro stack closable
  rw [run_cons, step_value (by decide) (by decide)]
  cases items with
  | nil => rfl
  | cons item others => exact run_items stack [] true item others each []

theorem run_members (stack : List Frame) (done : List (Str × Value)) (closable : Bool) (item : α) (others : List α)
    (names : ∀ other ∈ item :: others, Spells (raw other) (name other))
    (each : ∀ other ∈ item :: others, Reads (print other) (value other)) (rest : Str) :
    run ⟨stack, .name done closable⟩
        ([','].intercalate ((item :: others).map fun other => '"' :: (raw other ++ '"' :: ':' :: print other)) ++ '\x7d' :: rest) =
      run ⟨stack, .closed (.object (done ++ (item :: others).map fun other => (name other, value other)))⟩ rest := by
  have here := each item List.mem_cons_self
  have spells := names item List.mem_cons_self
  induction others generalizing item done closable with
  | nil =>
    simp only [List.map_cons, List.map_nil, List.intercalate_singleton, List.cons_append, List.append_assoc]
    rw [run_name stack done closable spells, here _ _ _ _ (.inr (.inr rfl)), run_brace]
  | cons next others ih =>
    have later : ∀ other ∈ next :: others, Reads (print other) (value other) := fun other member =>
      each other (List.mem_cons_of_mem _ member)
    have laterNames : ∀ other ∈ next :: others, Spells (raw other) (name other) := fun other member =>
      names other (List.mem_cons_of_mem _ member)
    have tail := ih (done ++ [(name item, value item)]) false next laterNames later (later next List.mem_cons_self)
      (laterNames next List.mem_cons_self)
    simp only [List.map_cons, List.intercalate_cons_cons, List.cons_append, List.append_assoc, List.nil_append] at tail ⊢
    rw [run_name stack done closable spells, here _ _ _ _ (.inl rfl), run_member, tail]

variable (raw name print value) in
theorem Closes.object (items : List α) (names : ∀ item ∈ items, Spells (raw item) (name item))
    (each : ∀ item ∈ items, Reads (print item) (value item)) :
    Closes ('\x7b' :: ([','].intercalate (items.map fun item => '"' :: (raw item ++ '"' :: ':' :: print item)) ++ ['\x7d']))
      (.object (items.map fun item => (name item, value item))) := by
  intro stack closable
  rw [run_cons, step_value (by decide) (by decide)]
  cases items with
  | nil => rfl
  | cons item others => exact run_members stack [] true item others names each []

end

end Json
