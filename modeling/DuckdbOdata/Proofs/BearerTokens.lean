import DuckdbOdata.Auth.BearerToken
import DuckdbOdata.Foundation.Trimming
import DuckdbOdata.Proofs.RequestHeads
import DuckdbOdata.Proofs.Routes

/-! Which Authorization headers a configured token lets in. The credential is
trimmed before it is compared, the token is not. -/

namespace DuckdbOdata.BearerTokens
open Text Trimming HttpTargets RequestHeads

/-- A request as it is parsed from a head whose last Authorization header, if it
has one, is this text after the colon. -/
def Sends (value : Option Str) (request : HttpRequest) : Prop :=
  ∃ method target version headers, Word method ∧ Word target ∧ (version = "HTTP/1.0".toList ∨ version = "HTTP/1.1".toList) ∧
    (∀ header ∈ headers, HeaderName header.1 ∧ OneLine header.1 ∧ OneLine header.2) ∧
    (lastOf headers "authorization".toList).map Prod.snd = value ∧
    parseHttpRequest (renderHead method target version headers) = some request

/-- The text is Bearer in any case, a blank, and the credential among whitespace. -/
def Presents (value credential : Str) : Prop :=
  ∃ scheme rest, trimTabs value = scheme ++ ' ' :: rest ∧ toLower scheme = "bearer".toList ∧ trim rest = credential

def LetsIn (token : Str) (request : HttpRequest) : Prop :=
  checkBearerTokenLoop (request.getHeader "Authorization".toList) token = true

/-- The check compares with the token: Bearer and the token, among blanks, is let
in, nothing but the token is, and somebody is. -/
structure Exact (token : Str) : Prop where
  accepts : ∀ before scheme after request, before.all isTab = true → after.all isTab = true → toLower scheme = "bearer".toList →
    Sends (some (before ++ (scheme ++ ' ' :: token) ++ after)) request → LetsIn token request
  only : ∀ value request, Sends value request → LetsIn token request → ∃ text, value = some text ∧ Presents text token
  someone : ∃ value request, Sends value request ∧ LetsIn token request

private theorem sends_value {value : Option Str} {request : HttpRequest} (sends : Sends value request) :
    request.getHeader "Authorization".toList = (value.map trimTabs).getD [] := by
  obtain ⟨method, target, version, headers, asks, names, known, fields, last, parsed⟩ := sends
  have rendered := parse_rendered asks names known fields
  split at rendered
  next =>
    rw [rendered] at parsed
    cases parsed
  next =>
    obtain ⟨found, done, parts⟩ := rendered
    cases done.symm.trans parsed
    have lower : toLower "Authorization".toList = "authorization".toList := rfl
    rw [HttpRequest.getHeader, HttpRequest.header?, lower, parts.headers, ← last, Option.map_map]
    rfl

private theorem sends_some {text : Str} (single : OneLine text) : ∃ request, Sends (some text) request := by
  have names : Word "/".toList := ⟨by decide, every (by decide)⟩
  have named : HeaderName "Authorization".toList := ⟨by decide, every (by decide)⟩
  have line : OneLine "Authorization".toList := fun inside => absurd (inside.subset List.mem_cons_self) (by decide)
  have fields : ∀ header ∈ [("Authorization".toList, text)], HeaderName header.1 ∧ OneLine header.1 ∧ OneLine header.2 := by
    intro header member
    rw [List.mem_singleton.mp member]
    exact ⟨named, line, single⟩
  have none : lengthLines [("Authorization".toList, text)] = 0 := rfl
  have rendered := parse_rendered word_get names (.inr rfl) fields
  rw [if_neg (by omega)] at rendered
  obtain ⟨request, done, -⟩ := rendered
  exact ⟨request, _, _, _, _, word_get, names, .inr rfl, fields, rfl, done⟩

private theorem isTab_space {c : Char} (tab : isTab c = true) : isSpace c = true := by
  unfold isTab at tab
  rw [Bool.or_eq_true, beq_iff_eq, beq_iff_eq] at tab
  rcases tab with rfl | rfl <;> rfl

private theorem trimTabs_around {before text after : Str} (front : before.all isTab = true) (back : after.all isTab = true)
    (solid : Solid isSpace text) (some : text ≠ []) : trimTabs (before ++ text ++ after) = text :=
  (solid.mono fun _ => isTab_space).trimBy_around front back some

private theorem check_presents {text token : Str} (some : token ≠ []) (accepted : checkBearerToken (trimTabs text) token = true) :
    Presents text token := by
  unfold checkBearerToken at accepted
  rw [if_neg some] at accepted
  split at accepted
  next => cases accepted
  next scheme rest found =>
    rw [Bool.and_eq_true, decide_eq_true_eq, decide_eq_true_eq] at accepted
    exact ⟨scheme, rest, (cut_join found).1, accepted.1, accepted.2⟩

private theorem bearer_blank {scheme : Str} (bearer : toLower scheme = "bearer".toList) : ' ' ∉ scheme := by
  intro member
  have lower := (Routes.mem_toLower (by decide) scheme).mpr member
  rw [bearer] at lower
  exact absurd lower (by decide)

private theorem check_bearer {scheme token : Str} (bearer : toLower scheme = "bearer".toList) (trimmed : trim token = token) :
    checkBearerToken (scheme ++ ' ' :: token) token = true := by
  unfold checkBearerToken
  split
  · rfl
  · rw [cut_first (bearer_blank bearer)]
    simp [bearer, trimmed]

private theorem bearer_solid {scheme token : Str} (bearer : toLower scheme = "bearer".toList) (some : token ≠ [])
    (trimmed : trim token = token) : Solid isSpace (scheme ++ ' ' :: token) := by
  have ends : Solid isSpace (trim token) := solid_trimBy token
  rw [trimmed] at ends
  constructor
  · intro c first
    cases scheme with
    | nil => cases bearer
    | cons d scheme =>
      cases first
      have lower : c.toLower = 'b' := (List.cons.inj bearer).1
      by_contra space
      simp only [isSpace, Bool.not_eq_false, Bool.or_eq_true, beq_iff_eq] at space
      rcases space with ((((rfl | rfl) | rfl) | rfl) | rfl) | rfl
      all_goals exact absurd lower (by decide)
  · intro c last
    apply ends.last
    rwa [List.getLast?_append_of_ne_nil _ (List.cons_ne_nil _ _), List.getLast?_cons_of_ne_nil some] at last

private theorem someone_trimmed {token : Str} (exact' : Exact token) : trim token = token := by
  obtain ⟨value, request, sends, accepted⟩ := exact'.someone
  obtain ⟨text, -, scheme, rest, -, -, same⟩ := exact'.only value request sends accepted
  rw [← same]
  exact trimBy_trimBy rest

/-- The check is exact for a token if and only if the token has no whitespace at
its ends. -/
theorem exact_iff (token : Str) (some : token ≠ []) (line : '\r' ∉ token ∧ '\n' ∉ token) : Exact token ↔ trim token = token := by
  refine ⟨someone_trimmed, fun trimmed => ?_⟩
  have accepts : ∀ before scheme after request, before.all isTab = true → after.all isTab = true → toLower scheme = "bearer".toList →
      Sends (.some (before ++ (scheme ++ ' ' :: token) ++ after)) request → LetsIn token request := by
    intro before scheme after request front back bearer sends
    have present : scheme ++ ' ' :: token ≠ [] := by simp
    rw [LetsIn, checkBearerTokenLoop_eq, sends_value sends, Option.map_some, Option.getD_some,
      trimTabs_around front back (bearer_solid bearer some trimmed) present]
    exact check_bearer bearer trimmed
  refine ⟨accepts, ?_, ?_⟩
  · intro value request sends accepted
    rw [LetsIn, checkBearerTokenLoop_eq, sends_value sends] at accepted
    cases value with
    | none =>
      unfold checkBearerToken at accepted
      rw [if_neg some] at accepted
      cases accepted
    | some text => exact ⟨text, rfl, check_presents some accepted⟩
  · have single : OneLine ([] ++ ("Bearer".toList ++ ' ' :: token) ++ []) := by
      intro inside
      have member := inside.subset List.mem_cons_self
      rw [List.append_nil, List.nil_append, List.mem_append, List.mem_cons] at member
      rcases member with name | blank | inside
      · exact absurd name (by decide)
      · cases blank
      · exact line.1 inside
    obtain ⟨request, sends⟩ := sends_some single
    exact ⟨_, request, sends, accepts [] "Bearer".toList [] request rfl rfl rfl sends⟩

theorem exact_iff_secret : Exact "secret".toList :=
  (exact_iff "secret".toList (by decide) (by decide)).mpr rfl

/-- A blank after the token locks everyone out. -/
theorem exact_iff_blank : ¬ Exact "secret ".toList := fun exact' => absurd (someone_trimmed exact') (by decide)

end DuckdbOdata.BearerTokens
