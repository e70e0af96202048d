import DuckdbOdata.Foundation.JsonReader

/-! Texts that end every reading of a JSON text, and objects whose first member
was written by somebody else: whether the whole can be read depends on where the
first part leaves the reader. -/

namespace Json
open Text

/-- Before a delimiter, the text is no value. -/
def Fails (text : Str) : Prop :=
  ∀ stack c rest, Delimits c → run ⟨stack, .value false⟩ (text ++ c :: rest) = none

/-- The text is no value, whatever follows it. -/
def Breaks (text : Str) : Prop := ∀ stack closable rest, run ⟨stack, .value closable⟩ (text ++ rest) = none

theorem Breaks.fails {text : Str} (breaks : Breaks text) : Fails text := fun stack c rest _ => breaks stack false (c :: rest)

theorem run_stop {state : State} {c : Char} (stopped : step state c = none) (rest : Str) : run state (c :: rest) = none := by
  rw [run_cons, stopped]
  rfl

def numeric (c : Char) : Prop := c.isDigit = true ∨ c = '-' ∨ c = '.'

private theorem numeric_other {c : Char} (plain : numeric c) : ∀ d, d ≠ '-' → d ≠ '.' → d.isDigit = false → c ≠ d := by
  rintro d minus point other rfl
  rcases plain with digit | same | same
  · rw [other] at digit
    cases digit
  · exact minus same
  · exact point same

private theorem numeric_blank {c : Char} (plain : numeric c) : isBlank c = false := by
  have other := numeric_other plain
  simp only [isBlank, Bool.or_eq_false_iff, decide_eq_false_iff_not]
  exact ⟨⟨⟨other _ (by decide) (by decide) (by decide), other _ (by decide) (by decide) (by decide)⟩,
    other _ (by decide) (by decide) (by decide)⟩, other _ (by decide) (by decide) (by decide)⟩

private theorem afterValue_numeric {c : Char} (plain : numeric c) (stack : List Frame) (value : Value) :
    afterValue stack value c = none := by
  have other := numeric_other plain
  unfold afterValue
  rw [if_neg (by simp [numeric_blank plain])]
  split
  · rfl
  · rw [if_neg (other _ (by decide) (by decide) (by decide)), if_neg (other _ (by decide) (by decide) (by decide))]
  · rw [if_neg (other _ (by decide) (by decide) (by decide)), if_neg (other _ (by decide) (by decide) (by decide))]

private theorem run_number_fails (stack : List Frame) {text : Str} (plain : ∀ c ∈ text, numeric c) {part : Part}
    (incomplete : (text.foldlM Part.next part).any Part.complete = false) (before : Str) {c : Char} (rest : Str)
    (delimits : Delimits c) : run ⟨stack, .number before part⟩ (text ++ c :: rest) = none := by
  induction text generalizing part before with
  | nil =>
    have open' : part.complete = false := incomplete
    refine run_stop ?_ rest
    show inNumber stack before part c = none
    rw [inNumber, next_delimiter delimits, open']
    rfl
  | cons d text ih =>
    have more : ∀ c ∈ text, numeric c := fun c member => plain c (List.mem_cons_of_mem _ member)
    cases stepped : part.next d with
    | none =>
      refine run_stop ?_ _
      show inNumber stack before part d = none
      rw [inNumber, stepped]
      dsimp only
      rw [afterValue_numeric (plain d List.mem_cons_self)]
      exact ite_self _
    | some next =>
      have here : step ⟨stack, .number before part⟩ d = some ⟨stack, .number (before ++ [d]) next⟩ := by
        rw [step, inNumber, stepped]
      rw [List.cons_append, run_cons, here]
      refine ih more ?_ (before ++ [d])
      rw [List.foldlM_cons, stepped] at incomplete
      exact incomplete

theorem Fails.number {text : Str} (plain : ∀ c ∈ text, numeric c) (other : isNumber text = false) : Fails text := by
  intro stack c rest delimits
  cases text with
  | nil =>
    refine run_stop ?_ rest
    rcases delimits with rfl | rfl | rfl <;> rfl
  | cons d text =>
    have digit := plain d List.mem_cons_self
    have more : ∀ c ∈ text, numeric c := fun c member => plain c (List.mem_cons_of_mem _ member)
    cases first : Part.first d with
    | none =>
      refine run_stop ?_ _
      have point : d = '.' := by
        unfold Part.first at first
        rcases digit with digit | rfl | same
        · rw [digit] at first
          split at first <;> (try split at first) <;> simp at first
        · cases first
        · exact same
      subst point
      rfl
    | some part =>
      obtain ⟨solid, bracket, begins⟩ := first_plain first
      rw [List.cons_append, run_cons, step_value solid bracket, begins]
      refine run_number_fails stack more ?_ [d] rest delimits
      rw [isNumber, lastPart, first] at other
      exact other

theorem Reads.not_fails {text : Str} {value : Value} (reads : Reads text value) : ¬ Fails text := by
  intro fails
  have one := reads [.array []] false ']' [] (.inr (.inl rfl))
  rw [fails _ _ _ (.inr (.inl rfl))] at one
  cases one

section
variable {α : Type} {print : α → Str} {value : α → Value} {raw name : α → Str}

private theorem run_members_fails (stack : List Frame) (done : List (Str × Value)) (closable : Bool) (items : List α)
    (names : ∀ item ∈ items, Spells (raw item) (name item))
    (each : ∀ item ∈ items, Reads (print item) (value item) ∨ Fails (print item)) (bad : ∃ item ∈ items, Fails (print item))
    (rest : Str) :
    run ⟨stack, .name done closable⟩
        ([','].intercalate (items.map fun other => '"' :: (raw other ++ '"' :: ':' :: print other)) ++ '\x7d' :: rest) = none := by
  induction items generalizing done closable with
  | nil => simp at bad
  | cons item others ih =>
    have spells := names item List.mem_cons_self
    have others_bad : ¬ Fails (print item) → ∃ other ∈ others, Fails (print other) := by
      intro reads
      obtain ⟨other, member, fails⟩ := bad
      rcases List.mem_cons.mp member with rfl | later
      · exact absurd fails reads
      · exact ⟨other, later, fails⟩
    cases others with
    | nil =>
      have fails : Fails (print item) := by
        by_contra reads
        obtain ⟨other, member, -⟩ := others_bad reads
        cases member
      simp only [List.map_cons, List.map_nil, List.intercalate_singleton, List.cons_append, List.append_assoc]
      rw [run_name stack done closable spells, fails _ _ _ (.inr (.inr rfl))]
    | cons next others =>
      simp only [List.map_cons, List.intercalate_cons_cons, List.cons_append, List.append_assoc, List.nil_append] at ih ⊢
      rw [run_name stack done closable spells]
      by_cases fails : Fails (print item)
      · exact fails _ _ _ (.inl rfl)
      · have reads := (each item List.mem_cons_self).resolve_right fails
        rw [reads _ _ _ _ (.inl rfl), run_member]
        exact ih _ _ (fun other member => names other (List.mem_cons_of_mem _ member))
          (fun other member => each other (List.mem_cons_of_mem _ member)) (others_bad fails)

variable (raw name print value) in
theorem Breaks.object (items : List α) (names : ∀ item ∈ items, Spells (raw item) (name item))
    (each : ∀ item ∈ items, Reads (print item) (value item) ∨ Fails (print item)) (bad : ∃ item ∈ items, Fails (print item)) :
    Breaks ('\x7b' :: ([','].intercalate (items.map fun item => '"' :: (raw item ++ '"' :: ':' :: print item)) ++ ['\x7d'])) := by
  intro stack closable rest
  rw [List.cons_append, run_cons, step_value (by decide) (by decide)]
  have fails := run_members_fails stack [] true items names each bad rest
  simpa [beginValue] using fails

private theorem run_items_fails (stack : List Frame) (done : List Value) (closable : Bool) (items : List α)
    (each : ∀ item ∈ items, Closes (print item) (value item) ∨ Breaks (print item)) (bad : ∃ item ∈ items, Breaks (print item))
    (rest : Str) : run ⟨.array done :: stack, .value closable⟩ ([','].intercalate (items.map print) ++ rest) = none := by
  induction items generalizing done closable with
  | nil => simp at bad
  | cons item others ih =>
    have others_bad : ¬ Breaks (print item) → ∃ other ∈ others, Breaks (print other) := by
      intro reads
      obtain ⟨other, member, breaks⟩ := bad
      rcases List.mem_cons.mp member with rfl | later
      · exact absurd breaks reads
      · exact ⟨other, later, breaks⟩
    cases others with
    | nil =>
      have breaks : Breaks (print item) := by
        by_contra reads
        obtain ⟨other, member, -⟩ := others_bad reads
        cases member
      simp only [List.map_cons, List.map_nil, List.intercalate_singleton]
      exact breaks _ _ _
    | cons next others =>
      simp only [List.map_cons, List.intercalate_cons_cons, List.cons_append, List.append_assoc, List.nil_append] at ih ⊢
      by_cases breaks : Breaks (print item)
      · exact breaks _ _ _
      · have closes := (each item List.mem_cons_self).resolve_right breaks
        rw [run_then (closes _ _), run_comma]
        exact ih _ _ (fun other member => each other (List.mem_cons_of_mem _ member)) (others_bad breaks)

variable (value) in
theorem Breaks.array (items : List α) (each : ∀ item ∈ items, Closes (print item) (value item) ∨ Breaks (print item))
    (bad : ∃ item ∈ items, Breaks (print item)) : Breaks ('[' :: ([','].intercalate (items.map print) ++ [']'])) := by
  intro stack closable rest
  rw [List.cons_append, run_cons, step_value (by decide) (by decide)]
  have fails := run_items_fails stack [] true items each bad (']' :: rest)
  simpa [beginValue] using fails

end

/-- What is missing of a literal are letters. -/
def Lettered (state : State) : Prop := ∀ missing value, state.position = .word missing value → ∀ c ∈ missing, c.isAlpha = true

private theorem beginValue_lettered {stack : List Frame} {c : Char} {next : State} (begins : beginValue stack c = some next) :
    Lettered next := by
  unfold beginValue at begins
  split at begins
  next => cases begins; exact fun _ _ same => by cases same
  split at begins
  next => cases begins; exact fun _ _ same => by cases same
  split at begins
  next => cases begins; exact fun _ _ same => by cases same
  split at begins
  next => cases begins; exact fun _ _ same => by cases same; exact Text.every (by decide)
  split at begins
  next => cases begins; exact fun _ _ same => by cases same; exact Text.every (by decide)
  split at begins
  next => cases begins; exact fun _ _ same => by cases same; exact Text.every (by decide)
  next =>
    obtain ⟨part, -, rfl⟩ := Option.map_eq_some_iff.mp begins
    exact fun _ _ same => by cases same

private theorem afterValue_lettered {stack : List Frame} {value : Value} {c : Char} {next : State}
    (after : afterValue stack value c = some next) : Lettered next := by
  unfold afterValue at after
  repeat' split at after
  all_goals cases after
  all_goals exact fun _ _ same => by cases same

theorem step_lettered {state next : State} {c : Char} (stepped : step state c = some next) (lettered : Lettered state) :
    Lettered next := by
  obtain ⟨stack, position⟩ := state
  cases position with
  | value closable =>
    simp only [step, inValue] at stepped
    split at stepped
    next => cases stepped; exact fun _ _ same => by cases same
    split at stepped
    next =>
      split at stepped
      next => cases stepped; exact fun _ _ same => by cases same
      next => cases stepped
    next => exact beginValue_lettered stepped
  | name members closable =>
    simp only [step, inName] at stepped
    repeat' split at stepped
    all_goals cases stepped
    all_goals exact fun _ _ same => by cases same
  | colon members name =>
    simp only [step, inColon] at stepped
    repeat' split at stepped
    all_goals cases stepped
    all_goals exact fun _ _ same => by cases same
  | string members read escape =>
    simp only [step, inString] at stepped
    split at stepped
    next =>
      cases stepped
      cases members <;> exact fun _ _ same => by cases same
    next =>
      obtain ⟨_, -, rfl⟩ := Option.map_eq_some_iff.mp stepped
      exact fun _ _ same => by cases same
  | number read part =>
    simp only [step, inNumber] at stepped
    split at stepped
    next => cases stepped; exact fun _ _ same => by cases same
    next =>
      split at stepped
      next => exact afterValue_lettered stepped
      next => cases stepped
  | word missing value =>
    simp only [step, inWord] at stepped
    split at stepped
    next => cases stepped
    next d rest =>
      split at stepped
      next => cases stepped
      split at stepped
      next => cases stepped; exact fun _ _ same => by cases same
      next =>
        cases stepped
        rintro missing value same
        cases same
        exact fun c member => lettered _ _ rfl c (List.mem_cons_of_mem _ member)
  | closed value => exact afterValue_lettered stepped

theorem run_lettered {state after : State} {text : Str} (ran : run state text = some after) (lettered : Lettered state) :
    Lettered after := by
  induction text generalizing state with
  | nil => cases ran; exact lettered
  | cons c text ih =>
    rw [run_cons] at ran
    obtain ⟨next, stepped, ran⟩ := Option.bind_eq_some_iff.mp ran
    exact ih ran (step_lettered stepped lettered)

/-- Where a quote leaves the reader: inside a string, or after one. -/
inductive AfterQuote : State → Prop
  | string {stack members read escape} : AfterQuote ⟨stack, .string members read escape⟩
  | colon {stack members name} : AfterQuote ⟨stack, .colon members name⟩
  | closed {stack value} : AfterQuote ⟨stack, .closed value⟩

private theorem afterValue_quote (stack : List Frame) (value : Value) : afterValue stack value '"' = none := by
  cases stack with
  | nil => rfl
  | cons frame outer => cases frame <;> rfl

theorem step_quote {state next : State} (lettered : Lettered state) (stepped : step state '"' = some next) : AfterQuote next := by
  obtain ⟨stack, position⟩ := state
  cases position with
  | value closable =>
    have opens : step ⟨stack, .value closable⟩ '"' = some ⟨stack, .string none [] .plain⟩ := step_value (by decide) (by decide)
    cases opens.symm.trans stepped
    exact .string
  | name members closable => cases stepped; exact .string
  | colon members name => cases stepped
  | string members read escape =>
    simp only [step, inString] at stepped
    split at stepped
    next =>
      cases stepped
      cases members
      · exact .closed
      · exact .colon
    next =>
      obtain ⟨_, -, rfl⟩ := Option.map_eq_some_iff.mp stepped
      exact .string
  | number read part =>
    have other : part.next '"' = none := by cases part <;> rfl
    simp only [step, inNumber, other, afterValue_quote] at stepped
    split at stepped <;> cases stepped
  | word missing value =>
    simp only [step, inWord] at stepped
    split at stepped
    next => cases stepped
    next d rest =>
      split at stepped
      next => cases stepped
      next same =>
        have quote : '"' = d := by simpa using same
        have letter := lettered _ _ rfl d List.mem_cons_self
        rw [← quote] at letter
        cases letter
  | closed value => cases (afterValue_quote stack value).symm.trans stepped

private theorem step_slash {state next : State} (lettered : Lettered state) (stepped : step state '/' = some next) :
    ∃ stack members text, next = ⟨stack, .string members text .plain⟩ := by
  have after : ∀ stack value, afterValue stack value '/' = none := by
    intro stack value
    cases stack with
    | nil => rfl
    | cons frame outer => cases frame <;> rfl
  obtain ⟨stack, position⟩ := state
  cases position with
  | value closable =>
    have stops : step ⟨stack, .value closable⟩ '/' = none := step_value (by decide) (by decide)
    cases stops.symm.trans stepped
  | name members closable =>
    have stops : step ⟨stack, .name members closable⟩ '/' = none := by cases closable <;> rfl
    cases stops.symm.trans stepped
  | colon members name => cases stepped
  | string members read escape =>
    cases escape with
    | plain => cases stepped; exact ⟨_, _, _, rfl⟩
    | started => cases stepped; exact ⟨_, _, _, rfl⟩
    | unit digits => cases stepped
  | number read part =>
    have other : part.next '/' = none := by cases part <;> rfl
    simp only [step, inNumber, other, after] at stepped
    split at stepped <;> cases stepped
  | word missing value =>
    simp only [step, inWord] at stepped
    split at stepped
    next => cases stepped
    next d rest =>
      split at stepped
      next => cases stepped
      next same =>
        have slash : '/' = d := by simpa using same
        have letter := lettered _ _ rfl d List.mem_cons_self
        rw [← slash] at letter
        cases letter
  | closed value => cases (after stack value).symm.trans stepped

private theorem lettered_start : Lettered {} := fun _ _ same => by cases same

theorem run_quote {before : Str} {state : State} (ran : run {} (before ++ ['"']) = some state) : AfterQuote state := by
  rw [run_append] at ran
  obtain ⟨middle, first, last⟩ := Option.bind_eq_some_iff.mp ran
  have stepped : step middle '"' = some state := by simpa [run] using last
  exact step_quote (run_lettered first lettered_start) stepped

/-- The object that `before` starts is complete once its last string is closed. -/
def Framed (before : Str) : Prop := (read (before ++ ['"', '\x7d'])).isSome = true

/-- The reader is inside the outermost object, after a member. -/
theorem framed_iff {before : Str} :
    Framed before ↔ ∃ members name value, run {} (before ++ ['"']) = some ⟨[.object members name], .closed value⟩ := by
  have split : before ++ ['"', '\x7d'] = (before ++ ['"']) ++ ['\x7d'] := by simp
  unfold Framed
  rw [split]
  constructor
  · intro framed
    cases ran : run {} (before ++ ['"']) with
    | none =>
      rw [read, run_append, ran] at framed
      cases framed
    | some state =>
      have last : run {} ((before ++ ['"']) ++ ['\x7d']) = step state '\x7d' := by
        rw [run_then ran]
        simp [run]
      rw [read, last] at framed
      cases run_quote ran with
      | @string stack members text escape =>
        simp only [step, inString] at framed
        cases escaped : stringStep escape '\x7d' with
        | none => simp [escaped] at framed
        | some next => simp [escaped] at framed
      | colon => cases framed
      | @closed stack value =>
        cases stack with
        | nil => cases framed
        | cons frame outer =>
          cases frame with
          | array items => cases framed
          | object members name =>
            cases outer with
            | nil => exact ⟨members, name, value, rfl⟩
            | cons frame outer => cases framed
  · intro opened
    obtain ⟨members, name, value, ran⟩ := opened
    rw [read, run_then ran]
    rfl

/-- A character that neither follows a string nor starts another member. -/
def Stray (c : Char) : Prop := isBlank c = false ∧ c ≠ ',' ∧ c ≠ ']' ∧ c ≠ '\x7d' ∧ c ≠ ':'

private theorem afterValue_stray {c : Char} (stray : Stray c) (stack : List Frame) (value : Value) :
    afterValue stack value c = none := by
  obtain ⟨solid, comma, bracket, brace, -⟩ := stray
  simp only [afterValue, solid, Bool.false_eq_true, if_false]
  split
  · rfl
  · rw [if_neg comma, if_neg bracket]
  · rw [if_neg comma, if_neg brace]

/-- What follows the quote is not read as part of a string. -/
def Settled (state : State) (next : Str) : Prop :=
  (∀ stack members text escape, state ≠ ⟨stack, .string members text escape⟩) ∨ ∃ c rest, next = c :: rest ∧ Stray c

theorem Settled.stray {state : State} {c : Char} {rest : Str} (stray : Stray c) : Settled state (c :: rest) :=
  .inr ⟨c, rest, rfl, stray⟩

/-- A plain text after a slash is the end of a string. -/
theorem Settled.slash {before text next : Str} {state : State} (plain : ∀ c ∈ text, c ≠ '"' ∧ c ≠ '\\' ∧ 32 ≤ c.toNat)
    (ran : run {} ((before ++ '/' :: text) ++ ['"']) = some state) : Settled state next := by
  have split : (before ++ '/' :: text) ++ ['"'] = before ++ '/' :: (text ++ '"' :: []) := by simp
  rw [split, run_append] at ran
  obtain ⟨first, start, ran⟩ := Option.bind_eq_some_iff.mp ran
  rw [run_cons] at ran
  obtain ⟨inside, stepped, ran⟩ := Option.bind_eq_some_iff.mp ran
  obtain ⟨stack, members, read, rfl⟩ := step_slash (run_lettered start lettered_start) stepped
  rw [run_then (Spells.plain plain stack members read)] at ran
  left
  intro _ _ _ _ same
  cases ran
  cases members <;> cases same

private theorem string_stops {stack : List Frame} {members : Option (List (Str × Value))} {text : Str} {escape : Escape}
    {c : Char} (stray : Stray c) (rest : Str) : run ⟨stack, .string members text escape⟩ (',' :: '"' :: c :: rest) = none := by
  cases escape with
  | plain =>
    cases members with
    | none =>
      have ended : run ⟨stack, .string none text .plain⟩ (',' :: '"' :: c :: rest) =
          run ⟨stack, .closed (.string (text ++ [',']))⟩ (c :: rest) := rfl
      have stopped : step ⟨stack, .closed (.string (text ++ [',']))⟩ c = none := afterValue_stray stray _ _
      rw [ended]
      exact run_stop stopped rest
    | some members =>
      have ended : run ⟨stack, .string (some members) text .plain⟩ (',' :: '"' :: c :: rest) =
          run ⟨stack, .colon members (text ++ [','])⟩ (c :: rest) := rfl
      have stopped : step ⟨stack, .colon members (text ++ [','])⟩ c = none := by
        simp [step, inColon, stray.1, stray.2.2.2.2]
      rw [ended]
      exact run_stop stopped rest
  | started => rfl
  | unit digits => rfl

private theorem inside_object {state : State} (after : AfterQuote state) {raw name rest : Str} (spells : Spells raw name)
    (settled : Settled state raw) (goes : run state (',' :: '"' :: (raw ++ '"' :: ':' :: rest)) ≠ none) :
    ∃ members first outer value, state = ⟨.object members first :: outer, .closed value⟩ := by
  cases after with
  | string =>
    obtain ⟨c, text, rfl, stray⟩ := settled.resolve_left fun none => none _ _ _ _ rfl
    exact absurd (string_stops stray _) goes
  | colon => exact absurd rfl goes
  | @closed stack value =>
    cases stack with
    | nil => exact absurd rfl goes
    | cons frame outer =>
      cases frame with
      | object members first => exact ⟨members, first, outer, value, rfl⟩
      | array items =>
        have string : run ⟨.array items :: outer, .closed value⟩ (',' :: '"' :: (raw ++ '"' :: ':' :: rest)) =
            run ⟨.array (items ++ [value]) :: outer, .string none [] .plain⟩ (raw ++ '"' :: ':' :: rest) := rfl
        rw [string, run_closing _ none spells] at goes
        exact absurd rfl goes

section
variable {α : Type} (print : α → Str) (value : α → Value) (raw name : α → Str)

/-- The members of an object after the first ones, and its end. -/
def continued (items : List α) : Str :=
  [','].intercalate (items.map fun item => '"' :: (raw item ++ '"' :: ':' :: print item)) ++ ['\x7d']

variable {print value raw name}

private theorem continued_cons (item : α) (others : List α) :
    ∃ rest, continued print raw (item :: others) = '"' :: (raw item ++ '"' :: ':' :: rest) := by
  cases others with
  | nil => exact ⟨_, by simp [continued]; rfl⟩
  | cons next others => exact ⟨_, by simp [continued]; rfl⟩

theorem read_continued (before : Str) (framed : Framed before) {items : List α} (some : items ≠ [])
    (names : ∀ item ∈ items, Spells (raw item) (name item)) (each : ∀ item ∈ items, Reads (print item) (value item)) :
    ∃ members, read (before ++ '"' :: ',' :: continued print raw items) =
      .some (.object (members ++ items.map fun item => (name item, value item))) := by
  obtain ⟨members, first, known, ran⟩ := framed_iff.mp framed
  have split : before ++ '"' :: ',' :: continued print raw items =
      (before ++ ['"']) ++ ',' :: continued print raw items := by simp
  cases items with
  | nil => exact absurd rfl some
  | cons item others =>
    refine ⟨members ++ [(first, known)], ?_⟩
    have whole := run_members [] (members ++ [(first, known)]) false item others names each []
    rw [read, split, run_then ran, run_member, continued, whole]
    rfl

private theorem read_empty {state : State} (after : AfterQuote state) (settled : Settled state []) :
    ¬ (match run state (',' :: continued print raw []) with
      | some ⟨[], .closed value⟩ => some value
      | some ⟨[], .number text part⟩ => if part.complete then some (.number text) else none
      | _ => none).isSome = true := by
  cases after with
  | string =>
    rcases settled with none | ⟨c, rest, same, -⟩
    · exact absurd rfl (none _ _ _ _)
    · cases same
  | colon => exact nofun
  | @closed stack value =>
    cases stack with
    | nil => exact nofun
    | cons frame outer => cases frame <;> exact nofun

/-- The whole can be read exactly if the first part is framed, there is another
member, and every member has a value. -/
theorem read_continued_iff (before : Str) {items : List α} (names : ∀ item ∈ items, Spells (raw item) (name item))
    (each : ∀ item ∈ items, Reads (print item) (value item) ∨ Fails (print item))
    (settled : ∀ state, run {} (before ++ ['"']) = some state → Settled state ((items.map raw).headD [])) :
    (read (before ++ '"' :: ',' :: continued print raw items)).isSome = true ↔
      Framed before ∧ items ≠ [] ∧ ∀ item ∈ items, Reads (print item) (value item) := by
  constructor
  · intro reads
    have split : before ++ '"' :: ',' :: continued print raw items =
        (before ++ ['"']) ++ ',' :: continued print raw items := by simp
    rw [read, split] at reads
    cases ran : run {} (before ++ ['"']) with
    | none =>
      rw [run_append, ran] at reads
      cases reads
    | some state =>
      have after := run_quote ran
      rw [run_then ran] at reads
      have goes : run state (',' :: continued print raw items) ≠ none := by
        intro none
        simp [none] at reads
      cases items with
      | nil => exact absurd reads (read_empty after (settled _ ran))
      | cons item others =>
        obtain ⟨rest, shape⟩ : ∃ rest, continued print raw (item :: others) = '"' :: (raw item ++ '"' :: ':' :: rest) :=
          continued_cons item others
        rw [shape] at goes
        obtain ⟨members, first, outer, known, rfl⟩ := inside_object after (names item List.mem_cons_self) (settled _ ran) goes
        rw [run_member] at reads
        have all : ∀ other ∈ item :: others, Reads (print other) (value other) := by
          by_contra bad
          simp only [not_forall] at bad
          obtain ⟨other, member, fails⟩ := bad
          have none := run_members_fails outer (members ++ [(first, known)]) false (item :: others) names each
            ⟨other, member, (each other member).resolve_left fails⟩ []
          rw [continued, none] at reads
          cases reads
        have whole := run_members outer (members ++ [(first, known)]) false item others names all []
        rw [continued, whole] at reads
        cases outer with
        | nil => exact ⟨framed_iff.mpr ⟨members, first, known, ran⟩, List.cons_ne_nil _ _, all⟩
        | cons frame outer => cases reads
  · intro ⟨framed, present, all⟩
    obtain ⟨members, done⟩ := read_continued before framed present names all
    rw [done]
    rfl

end

end Json
