import DuckdbOdata.Proofs.HttpTargets
import DuckdbOdata.Proofs.Numerals
import DuckdbOdata.Server.Endpoint

/-! Addresses that a server is started with. The port is read by a conversion that
takes any numeric prefix of an int, and the socket gets its lower 16 bits. -/

namespace DuckdbOdata.ServerAddresses
open Text Numerals HttpTargets

def addressOf (scheme host port path : Str) : Str := scheme ++ "://".toList ++ (host ++ ':' :: (port ++ '/' :: path))

/-- A decimal number of 16 bits. -/
structure IsPort (text : Str) : Prop where
  some : text ≠ []
  digits : Digits text
  small : Nat.ofDigitChars 10 text 0 ≤ 65535

/-- The address is accepted if the port is one, and read as it is written. -/
structure Exact (scheme host port path : Str) : Prop where
  accepted : (parseAddress (addressOf scheme host port path)).isSome = true ↔ IsPort port
  read : IsPort port → parseAddress (addressOf scheme host port path) =
    some ⟨host, Nat.ofDigitChars 10 port 0, '/' :: path⟩

/-- What stands before the first slash. -/
def beforeSlash (port : Str) : Str := port.takeWhile (· ≠ '/')

/-- What stands after the last colon. -/
def afterColon (text : Str) : Str := (text.reverse.takeWhile (· ≠ ':')).reverse

/-- There is no bracket, and what is taken for the port begins with no int. -/
def Refused (port : Str) : Prop :=
  ']' ∉ beforeSlash port ∧ ∀ number, stoi (afterColon (beforeSlash port)) ≠ .ok number

section
variable {scheme host port path : Str}

private theorem address_body (schemed : ':' ∉ scheme) (rest : Str) :
    cutText "://".toList (scheme ++ "://".toList ++ rest) = some (scheme, rest) := cutText_plain schemed rest

private theorem parse_parts (port path : Str) (schemed : ':' ∉ scheme) (plain : ∀ c ∈ host, c ≠ ':' ∧ c ≠ '/' ∧ c ≠ ']') :
    ∃ rest, parseAddress (addressOf scheme host port path) =
      (splitPort (host ++ ':' :: beforeSlash port)).map fun (name, number) => {
        host := if name = [] then "0.0.0.0".toList else name
        port := number
        path := if rest = [] then "/odata".toList else '/' :: rest } := by
  have some : addressOf scheme host port path ≠ [] := by simp [addressOf]
  have assoc : host ++ ':' :: (port ++ '/' :: path) = (host ++ ':' :: port) ++ '/' :: path := by simp
  obtain ⟨rest, cuts⟩ := cut_taken '/' (host ++ ':' :: port) path
  have taken : (host ++ ':' :: port).takeWhile (· ≠ '/') = host ++ ':' :: beforeSlash port := by
    rw [List.takeWhile_append_of_pos fun c member => decide_eq_true (plain c member).2.1]
    rfl
  refine ⟨rest, ?_⟩
  unfold parseAddress
  rw [if_neg some, addressOf, address_body schemed]
  dsimp only [Option.map_some, Option.getD_some]
  rw [assoc, cuts, taken]
  rfl

private theorem splitPort_parts (plain : ∀ c ∈ host, c ≠ ':' ∧ c ≠ '/' ∧ c ≠ ']') (text : Str) :
    (splitPort (host ++ ':' :: text)).isSome = true ↔ ']' ∈ text ∨ ∃ number, stoi (afterColon text) = .ok number := by
  have reversed : (host ++ ':' :: text).reverse = text.reverse ++ ':' :: host.reverse := by simp
  have bracket : ']' ∈ host ++ ':' :: text ↔ ']' ∈ text := by
    have absent : ']' ∉ host := fun member => (plain _ member).2.2 rfl
    simp [absent]
  obtain ⟨name, cuts⟩ := cut_taken ':' text.reverse host.reverse
  unfold splitPort
  rw [reversed, cuts]
  dsimp only
  rw [← afterColon]
  split
  next inside => exact iff_of_true rfl (.inl (bracket.mp inside))
  next outside =>
    rw [or_iff_right (fun inside => outside (bracket.mpr inside))]
    split
    next number converted => exact iff_of_true rfl ⟨number, converted⟩
    next failure failed =>
      refine iff_of_false (by decide) ?_
      intro ⟨number, converted⟩
      rw [failed] at converted
      cases converted

private theorem address_accepted (port path : Str) (schemed : ':' ∉ scheme) (plain : ∀ c ∈ host, c ≠ ':' ∧ c ≠ '/' ∧ c ≠ ']') :
    (parseAddress (addressOf scheme host port path)).isSome = true ↔ ¬ Refused port := by
  obtain ⟨rest, parsed⟩ := parse_parts port path schemed plain
  rw [parsed, Option.isSome_map, splitPort_parts plain, Refused, not_and_or, not_not, not_forall]
  simp only [not_not]

private theorem port_free (isPort : IsPort port) {c : Char} (other : c.isDigit = false) : c ∉ port := by
  intro member
  rw [isPort.digits c member] at other
  cases other

private theorem stoi_port (isPort : IsPort port) : stoi port = .ok (Nat.ofDigitChars 10 port 0) := by
  have small := isPort.small
  have converted := @stoll_digits false port isPort.some isPort.digits
  have value : asLongLong (signed false (Nat.ofDigitChars 10 port 0)) (minus false ++ port).length =
      .ok ((Nat.ofDigitChars 10 port 0 : Nat), (minus false ++ port).length) := by
    have inside : int64Min ≤ (Nat.ofDigitChars 10 port 0 : Nat) ∧ ((Nat.ofDigitChars 10 port 0 : Nat) : Int) ≤ int64Max := by
      unfold int64Min int64Max
      omega
    exact if_pos inside
  rw [value] at converted
  unfold stoi
  have plain : minus false ++ port = port := rfl
  rw [plain] at converted
  rw [converted]
  exact if_pos (by omega)

private theorem parse_port (path : Str) (schemed : ':' ∉ scheme) (plain : ∀ c ∈ host, c ≠ ':' ∧ c ≠ '/' ∧ c ≠ ']')
    (isPort : IsPort port) :
    parseAddress (addressOf scheme host port path) = some {
      host := if host = [] then "0.0.0.0".toList else host
      port := Nat.ofDigitChars 10 port 0
      path := if path = [] then "/odata".toList else '/' :: path } := by
  have some : addressOf scheme host port path ≠ [] := by simp [addressOf]
  have assoc : host ++ ':' :: (port ++ '/' :: path) = (host ++ ':' :: port) ++ '/' :: path := by simp
  have slash : '/' ∉ host ++ ':' :: port := by
    have absent : '/' ∉ host := fun member => (plain _ member).2.1 rfl
    simp [absent, port_free isPort (c := '/') rfl]
  have bracket : ']' ∉ host ++ ':' :: port := by
    have absent : ']' ∉ host := fun member => (plain _ member).2.2 rfl
    simp [absent, port_free isPort (c := ']') rfl]
  have colon : ':' ∉ port.reverse := fun member => port_free isPort (c := ':') rfl (List.mem_reverse.mp member)
  have reversed : (host ++ ':' :: port).reverse = port.reverse ++ ':' :: host.reverse := by simp
  have split' : splitPort (host ++ ':' :: port) = .some (host, (Nat.ofDigitChars 10 port 0 : Nat)) := by
    unfold splitPort
    rw [reversed, cut_first colon]
    dsimp only
    rw [if_neg bracket, List.reverse_reverse, List.reverse_reverse, stoi_port isPort]
  unfold parseAddress
  rw [if_neg some, addressOf, address_body schemed]
  dsimp only [Option.map_some, Option.getD_some]
  rw [assoc, cut_first slash]
  dsimp only [Option.getD_some]
  rw [split']
  rfl

private theorem exact_port (schemed : ':' ∉ scheme) (plain : ∀ c ∈ host, c ≠ ':' ∧ c ≠ '/' ∧ c ≠ ']') (isPort : IsPort port) :
    Exact scheme host port path ↔ host ≠ [] ∧ path ≠ [] := by
  have parsed := parse_port path schemed plain isPort
  constructor
  · intro exact'
    have same := Option.some.inj (parsed.symm.trans (exact'.read isPort))
    simp only [Address.mk.injEq] at same
    obtain ⟨name, -, rest⟩ := same
    constructor
    · intro none
      rw [if_pos none, none] at name
      cases name
    · intro none
      rw [if_pos none, none] at rest
      cases rest
  · intro ⟨name, rest⟩
    rw [if_neg name, if_neg rest] at parsed
    exact ⟨iff_of_true (by rw [parsed]; rfl) isPort, fun _ => parsed⟩

private theorem exact_other (schemed : ':' ∉ scheme) (plain : ∀ c ∈ host, c ≠ ':' ∧ c ≠ '/' ∧ c ≠ ']') (other : ¬ IsPort port) :
    Exact scheme host port path ↔ Refused port := by
  have accepted := address_accepted port path schemed plain
  constructor
  · intro exact'
    by_contra taken
    exact other (exact'.accepted.mp (accepted.mpr taken))
  · intro refused
    exact ⟨iff_of_false (fun taken => accepted.mp taken refused) other, fun isPort => absurd isPort other⟩

end

private theorem intText_inj {port : Int} {bound : Nat} (same : intText port = intText bound) : port = bound := by
  have natural : intText bound = Nat.toDigits 10 bound := if_neg (by omega)
  rw [natural] at same
  unfold intText at same
  split at same
  next =>
    have digit := Nat.isDigit_of_mem_toDigits (b := 10) (n := bound) (by decide) (by decide) (same ▸ List.mem_cons_self)
    cases digit
  next positive =>
    have value := congrArg (fun digits => Nat.ofDigitChars 10 digits 0) same
    simp only [Nat.ofDigitChars_ten_toDigits] at value
    omega

private theorem reported_iff {network : Network} {host : Str} {port reported : Int} {socket : Socket}
    (started : startSocket network host port = some (socket, reported)) :
    reported = socket.port ↔ (0 < port ∧ port ≤ 65535) ∨ (port = 0 ∧ socket.name ≠ none) := by
  obtain ⟨listening, bound, same⟩ := Option.map_eq_some_iff.mp started
  cases same
  have positive := socket.positive
  have small := socket.small
  by_cases zero : port = 0
  · rw [if_pos zero]
    cases named : socket.name with
    | none =>
      refine iff_of_false ?_ (by simp [zero])
      rw [Option.map_none, Option.getD_none]
      omega
    | some said =>
      refine iff_of_true ?_ (.inr ⟨zero, nofun⟩)
      rw [socket.named said named]
      rfl
  · rw [if_neg zero]
    constructor
    · intro same
      omega
    · intro range
      have narrow : narrowPort port = port.toNat := by
        unfold narrowPort
        congr 1
        omega
      have given := network.bound host (narrowPort port) socket bound (by omega)
      omega

/-- A started server serves under the base path of the address or the argument. -/
theorem started_basePath {network : Network} {running : Bool} {address basePath : Str} {endpoint : Endpoint}
    (started : startODataServer network running address basePath = .ok endpoint) :
    servedBasePath address basePath = some endpoint.basePath := by
  unfold startODataServer at started
  split at started
  next => cases started
  split at started
  next => cases started
  next parsed accepted =>
  split at started
  next => cases started
  next =>
    cases started
    rw [servedBasePath, accepted]
    rfl

/-- An address is read as it is written exactly if its port is one and neither
host nor path is left to its default, or its port is none and is refused. A
started server reports the port of its socket exactly if the address asks for a
port of 16 bits, or for a free one that can be read back. -/
theorem addresses_iff (scheme host port path : Str) (network : Network) (running : Bool) (address basePath : Str) :
    (':' ∉ scheme → (∀ c ∈ host, c ≠ ':' ∧ c ≠ '/' ∧ c ≠ ']') →
      (Exact scheme host port path ↔ (IsPort port → host ≠ [] ∧ path ≠ []) ∧ (¬ IsPort port → Refused port))) ∧
      ∀ endpoint, startODataServer network running address basePath = .ok endpoint →
        ∃ parsed, parseAddress address = some parsed ∧
          (endpoint.listenUrl = listenUrl parsed.host endpoint.socket.port ↔
            (0 < parsed.port ∧ parsed.port ≤ 65535) ∨ (parsed.port = 0 ∧ endpoint.socket.name ≠ none)) := by
  constructor
  · intro schemed plain
    by_cases isPort : IsPort port
    · rw [exact_port schemed plain isPort]
      exact ⟨fun both => ⟨fun _ => both, fun other => absurd isPort other⟩, fun both => both.1 isPort⟩
    · rw [exact_other schemed plain isPort]
      exact ⟨fun refused => ⟨fun other => absurd other isPort, fun _ => refused⟩, fun both => both.2 isPort⟩
  · intro endpoint started
    unfold startODataServer at started
    split at started
    next => cases started
    split at started
    next => cases started
    next parsed accepted =>
    split at started
    next => cases started
    next socket reported listening =>
      cases started
      refine ⟨parsed, accepted, ?_⟩
      rw [← reported_iff listening]
      constructor
      · intro same
        exact intText_inj (List.append_cancel_left same)
      · intro same
        rw [same]

/-- A socket of a free port that can be read back. -/
private def socketOn (port : Nat) (positive : 0 < port) (small : port < 65536) : Socket where
  port := port
  positive := positive
  small := small
  name := some port
  named _ same := (Option.some.inj same).symm

/-- Every port is free, and 49152 is the first choice. -/
private def idle : Network where
  listen _ port :=
    if small : port < 65536 then
      if positive : 0 < port then some (socketOn port positive small) else some (socketOn 49152 (by decide) (by decide))
    else none
  bound host port socket listening some := by
    split at listening
    next =>
      rw [dif_pos (Nat.pos_of_ne_zero some)] at listening
      cases listening
      rfl
    next => cases listening

private theorem idle_starts {address host path : Str} {port : Int} {bound : Nat} (parsed : parseAddress address = some ⟨host, port, path⟩)
    (some : port ≠ 0) (narrow : narrowPort port = bound) (positive : 0 < bound) (small : bound < 65536) :
    ∃ endpoint, startODataServer idle false address [] = .ok endpoint ∧ endpoint.listenUrl = listenUrl host port ∧
      endpoint.socket.port = bound := by
  have listening : startSocket idle host port = .some (socketOn bound positive small, port) := by
    unfold startSocket idle
    dsimp only
    rw [narrow, dif_pos small, dif_pos positive, Option.map_some, if_neg some]
  unfold startODataServer
  rw [parsed]
  dsimp only
  rw [listening]
  exact ⟨_, rfl, rfl, rfl⟩

private theorem port_8080 : IsPort "8080".toList := ⟨by decide, every (by decide), by decide⟩

private theorem parsed_8080 : parseAddress "http://127.0.0.1:8080/odata".toList = some ⟨"127.0.0.1".toList, 8080, "/odata".toList⟩ := by
  decide +kernel

private theorem parsed_65617 : parseAddress "http://localhost:65617/odata".toList = some ⟨"localhost".toList, 65617, "/odata".toList⟩ := by
  decide +kernel

theorem addresses_iff_local :
    Exact "http".toList "127.0.0.1".toList "8080".toList "odata".toList ∧
      ∃ endpoint, startODataServer idle false "http://127.0.0.1:8080/odata".toList [] = .ok endpoint ∧
        endpoint.listenUrl = listenUrl "127.0.0.1".toList endpoint.socket.port := by
  have settled := addresses_iff "http".toList "127.0.0.1".toList "8080".toList "odata".toList idle false
    "http://127.0.0.1:8080/odata".toList []
  constructor
  · apply (settled.1 (by decide) (every (by decide))).mpr
    exact ⟨fun _ => ⟨by decide, by decide⟩, fun other => absurd port_8080 other⟩
  · obtain ⟨endpoint, started, -⟩ := idle_starts parsed_8080 (by decide) (show narrowPort 8080 = 8080 by decide) (by decide)
      (by decide)
    obtain ⟨parsed, accepted, reported⟩ := settled.2 endpoint started
    cases parsed_8080.symm.trans accepted
    exact ⟨endpoint, started, reported.mpr (.inl (by decide))⟩

/-- What follows the digits is ignored, and a number above 65535 is another port. -/
theorem addresses_iff_suffix :
    ¬ Exact "http".toList "localhost".toList "8080abc".toList "odata".toList ∧
      ∃ endpoint, startODataServer idle false "http://localhost:65617/odata".toList [] = .ok endpoint ∧
        endpoint.listenUrl = listenUrl "localhost".toList 65617 ∧ endpoint.socket.port = 81 := by
  constructor
  · intro exact'
    have accepted : (parseAddress (addressOf "http".toList "localhost".toList "8080abc".toList "odata".toList)).isSome = true := by
      decide +kernel
    have digit := (exact'.accepted.mp accepted).digits 'a' (by decide)
    cases digit
  · exact idle_starts parsed_65617 (by decide) (by decide) (by decide) (by decide)

end DuckdbOdata.ServerAddresses
