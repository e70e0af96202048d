import DuckdbOdata.Common.StringUtil
import Mathlib.Data.List.FinRange
import Mathlib.Data.Nat.Bitwise

/-! The bearer token check (`auth/auth.cpp`). -/

namespace DuckdbOdata
open Text

/-- The comparison loop looks at every byte, so it is equality of the texts. -/
def checkBearerToken (authorizationHeader expectedToken : Str) : Bool :=
  if expectedToken = [] then true
  else match cut ' ' authorizationHeader with
    | none => false
    | some (scheme, rest) => toLower scheme = "bearer".toList && trim rest = expectedToken

/-- `diff |= token[i] ^ expected_token[i]` at every position. -/
def tokenDiff : Str → Str → Nat → Nat
  | c :: token, d :: expectedToken, diff => tokenDiff token expectedToken (diff ||| (c.toNat ^^^ d.toNat))
  | _, _, diff => diff

/-- The lengths, then all bytes without an early exit. -/
def compareTokens (token expectedToken : Str) : Bool :=
  if token.length ≠ expectedToken.length then false else tokenDiff token expectedToken 0 = 0

/-- The check with its loop. -/
def checkBearerTokenLoop (authorizationHeader expectedToken : Str) : Bool :=
  if expectedToken = [] then true
  else match cut ' ' authorizationHeader with
    | none => false
    | some (scheme, rest) =>
      if toLower scheme ≠ "bearer".toList then false else compareTokens (trim rest) expectedToken

theorem tokenDiff_zero {token expectedToken : Str} (length : token.length = expectedToken.length) (diff : Nat) :
    tokenDiff token expectedToken diff = 0 ↔ diff = 0 ∧ token = expectedToken := by
  induction token generalizing expectedToken diff with
  | nil =>
    cases expectedToken with
    | nil => simp [tokenDiff]
    | cons d expectedToken => cases length
  | cons c token ih =>
    cases expectedToken with
    | nil => cases length
    | cons d expectedToken =>
      have same : c.toNat ^^^ d.toNat = 0 ↔ c = d := by
        rw [Nat.xor_eq_zero_iff, Char.toNat_inj]
      rw [tokenDiff, ih (Nat.succ.inj length), Nat.or_eq_zero_iff, same, List.cons.injEq, and_assoc]

theorem compareTokens_iff (token expectedToken : Str) : compareTokens token expectedToken = true ↔ token = expectedToken := by
  unfold compareTokens
  split
  next other => exact iff_of_false (by decide) fun same => other (congrArg List.length same)
  next same =>
    rw [decide_eq_true_eq, tokenDiff_zero (not_not.mp same)]
    simp

/-- The loop makes the check an equality. -/
theorem checkBearerTokenLoop_eq (authorizationHeader expectedToken : Str) :
    checkBearerTokenLoop authorizationHeader expectedToken = checkBearerToken authorizationHeader expectedToken := by
  unfold checkBearerTokenLoop checkBearerToken
  split
  · rfl
  split
  · rfl
  next scheme rest found =>
    rw [Bool.eq_iff_iff, Bool.and_eq_true, decide_eq_true_eq, decide_eq_true_eq]
    split
    next other => exact iff_of_false (by decide) fun both => other both.1
    next bearer =>
      rw [compareTokens_iff]
      exact ⟨fun same => ⟨not_not.mp bearer, same⟩, And.right⟩

def tokenHex (n : Nat) : Char := "0123456789ABCDEF".toList.getD n '0'

/-- Two digits for each of the random bytes. -/
def generateAuthToken (bytes : Fin 16 → Fin 256) : Str :=
  (List.finRange 16).flatMap fun i => [tokenHex ((bytes i).val / 16), tokenHex ((bytes i).val % 16)]

theorem tokenHex_digit (n : Nat) : tokenHex n ∈ "0123456789ABCDEF".toList := by
  unfold tokenHex
  rw [List.getD_eq_getElem?_getD]
  cases found : "0123456789ABCDEF".toList[n]? with
  | none => decide
  | some digit => exact List.mem_of_getElem? found

theorem generateAuthToken_length (bytes : Fin 16 → Fin 256) : (generateAuthToken bytes).length = 32 := by
  simp [generateAuthToken, List.length_flatMap]

theorem generateAuthToken_digits (bytes : Fin 16 → Fin 256) : ∀ c ∈ generateAuthToken bytes, c ∈ "0123456789ABCDEF".toList := by
  intro c member
  obtain ⟨i, -, member⟩ := List.mem_flatMap.mp member
  rcases List.mem_pair.mp member with rfl | rfl
  · exact tokenHex_digit _
  · exact tokenHex_digit _

end DuckdbOdata
