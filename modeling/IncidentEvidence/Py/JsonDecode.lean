import IncidentEvidence.Py.Dict
import IncidentEvidence.Py.Except
import IncidentEvidence.Py.Json

/-! # Decoding JSON text

    `json.loads` with its default arguments, as CPython's scanner reads a text
    from left to right. It fails in three ways: with a `JSONDecodeError`, with a
    `RecursionError` when containers are nested deeper than the interpreter
    allows, and with the plain `ValueError` of `int` on a literal of more than
    4300 digits.

    Every failure of the first kind has one type, so its message and position
    are left out. The main result says when the third kind happens: exactly when
    the scanner reaches an oversized literal before anything else is wrong
    (`loads_eq_value`).
-/

namespace Py

/-- How `json.loads` fails. -/
inductive DecodeError where
  /-- `JSONDecodeError`. -/
  | jsonDecode
  /-- `RecursionError`. -/
  | recursion
  /-- The `ValueError` of an integer literal with too many digits. -/
  | value
  deriving DecidableEq, Repr

/-! ### Strings -/

/-- The whitespace between tokens. -/
def isJsonSpace (c : CodePoint) : Bool := c ∈ str " \t\n\r"

def skipWhitespace (s : Str) : Str := s.dropWhile isJsonSpace

/-- The value of a hexadecimal digit, in either case. -/
def hexDigit (c : CodePoint) : Option Nat :=
  let n := c.ord
  if 48 ≤ n ∧ n ≤ 57 then some (n - 48)
  else if 97 ≤ n ∧ n ≤ 102 then some (n - 87)
  else if 65 ≤ n ∧ n ≤ 70 then some (n - 55)
  else none

/-- The four hexadecimal digits after `\u`, and the rest of the text. -/
def hex4 : Str → Option (Nat × Str)
  | a :: b :: c :: d :: rest => do
    return (((← hexDigit a) * 16 + (← hexDigit b)) * 256 + (← hexDigit c) * 16 + (← hexDigit d),
      rest)
  | _ => none

/-- The code point with a number below 0x110000. -/
def chr (n : Nat) : CodePoint :=
  if h : 0xD800 ≤ n ∧ n ≤ 0xDFFF then .surrogate ⟨n - 0xD800, by omega⟩ else .scalar (Char.ofNat n)

def isHighSurrogate (n : Nat) : Bool := 0xD800 ≤ n && n ≤ 0xDBFF

def isLowSurrogate (n : Nat) : Bool := 0xDC00 ≤ n && n ≤ 0xDFFF

/-- `Py_UNICODE_JOIN_SURROGATES`. -/
def joinSurrogates (high low : Nat) : Nat := 0x10000 + (high - 0xD800) * 0x400 + (low - 0xDC00)

/-- The character a two-character escape stands for. -/
def unescape (c : CodePoint) : Option CodePoint :=
  (str "\"\\/bfnrt").zip (str "\"\\/\x08\x0c\n\r\t") |>.lookup c

/-- The second half of a surrogate pair, when an escape for one follows. -/
def lowSurrogate : Str → Option (Nat × Str)
  | a :: b :: rest =>
    if a = .scalar '\\' ∧ b = .scalar 'u' then
      match hex4 rest with
      | some (low, rest) => if isLowSurrogate low then some (low, rest) else none
      | none => none
    else none
  | _ => none

/-- What follows a backslash inside a string. A surrogate that is not followed by
    its other half is kept alone. -/
def scanEscape : Str → Except DecodeError (CodePoint × Str)
  | [] => .error .jsonDecode
  | c :: rest =>
    if c = .scalar 'u' then
      match hex4 rest with
      | none => .error .jsonDecode
      | some (n, rest) =>
        match (if isHighSurrogate n then lowSurrogate rest else none) with
        | some (low, rest) => .ok (chr (joinSurrogates n low), rest)
        | none => .ok (chr n, rest)
    else
      match unescape c with
      | some d => .ok (d, rest)
      | none => .error .jsonDecode

/-- `scanstring` with `strict`, from after the opening quote. The fuel counts the
    characters left. -/
def scanChars : Nat → Str → Except DecodeError (Str × Str)
  | 0, _ => .error .jsonDecode
  | _ + 1, [] => .error .jsonDecode
  | fuel + 1, c :: rest =>
    if c = .scalar '"' then .ok ([], rest)
    else if c.ord < 0x20 then .error .jsonDecode
    else if c = .scalar '\\' then do
      let (d, rest) ← scanEscape rest
      let (s, rest) ← scanChars fuel rest
      return (d :: s, rest)
    else do
      let (s, rest) ← scanChars fuel rest
      return (c :: s, rest)

def scanString (s : Str) : Except DecodeError (Str × Str) := scanChars s.length s

/-! ### Numbers -/

/-- A number literal: an integer by sign and digits, a float by its text. -/
inductive NumberLiteral where
  | int (negative : Bool) (digits : Str)
  | float (text : Str)

/-- An optional minus sign. -/
def scanSign : Str → Str × Str
  | c :: rest => if c = .scalar '-' then ([c], rest) else ([], c :: rest)
  | [] => ([], [])

/-- The integer part: a zero alone, or digits that do not start with one. -/
def scanInteger : Str → Option (Str × Str)
  | c :: rest =>
    if c = .scalar '0' then some ([c], rest)
    else if c.isDigit then
      some (c :: rest.takeWhile CodePoint.isDigit, rest.dropWhile CodePoint.isDigit)
    else none
  | [] => none

/-- A point with at least one digit after it, if there is one. -/
def scanFraction : Str → Str × Str
  | p :: d :: rest =>
    if p = .scalar '.' ∧ d.isDigit = true then
      (p :: d :: rest.takeWhile CodePoint.isDigit, rest.dropWhile CodePoint.isDigit)
    else ([], p :: d :: rest)
  | s => ([], s)

/-- The sign of an exponent. -/
def scanExponentSign : Str → Str × Str
  | c :: rest => if c = .scalar '-' ∨ c = .scalar '+' then ([c], rest) else ([], c :: rest)
  | [] => ([], [])

/-- An exponent with at least one digit, if there is one. -/
def scanExponent : Str → Str × Str
  | e :: rest =>
    let (sign, digits) := scanExponentSign rest
    if (e = .scalar 'e' ∨ e = .scalar 'E') ∧ digits.takeWhile CodePoint.isDigit ≠ [] then
      (e :: (sign ++ digits.takeWhile CodePoint.isDigit), digits.dropWhile CodePoint.isDigit)
    else ([], e :: rest)
  | [] => ([], [])

/-- `_match_number`: the number literal at the start of a text. -/
def matchNumber (s : Str) : Option (NumberLiteral × Str) :=
  let (sign, rest) := scanSign s
  match scanInteger rest with
  | none => none
  | some (digits, rest) =>
    let (fraction, rest) := scanFraction rest
    let (exponent, rest) := scanExponent rest
    if fraction = [] ∧ exponent = [] then some (.int (sign ≠ []) digits, rest)
    else some (.float (sign ++ digits ++ fraction ++ exponent), rest)

/-- The number a string of decimal digits denotes. -/
def decimalValue (digits : Str) : Nat := digits.foldl (fun n c => n * 10 + (c.ord - 48)) 0

/-- `int` or `float` of a literal; `int` refuses too many digits. -/
def NumberLiteral.convert : NumberLiteral → Except DecodeError Json
  | .int negative digits =>
    if maxStrDigits < digits.length then .error .value
    else .ok (.int (if negative then -(decimalValue digits : Int) else decimalValue digits))
  | .float text => .ok (.float text)

/-! ### Values -/

/-- The rest of a text after a literal name. -/
def afterPrefix (name s : Str) : Option Str :=
  if s.take name.length = name then some (s.drop name.length) else none

/-- The names the scanner knows, `NaN` and the infinities included. -/
def constants : List (Str × Json) :=
  [(str "null", .null), (str "true", .bool true), (str "false", .bool false),
    (str "NaN", .float (str "NaN")), (str "Infinity", .float (str "Infinity")),
    (str "-Infinity", .float (str "-Infinity"))]

def scanConstant (s : Str) : Option (Json × Str) :=
  constants.findSome? fun (name, v) => (afterPrefix name s).map (v, ·)

section containers
variable {α : Type}

/-- Elements separated by commas, up to the closing bracket. The fuel is more than
    the characters left, so it never runs out. -/
def scanElements (close : CodePoint) (element : Str → Except DecodeError (α × Str)) :
    Nat → Str → Except DecodeError (List α × Str)
  | 0, _ => .error .jsonDecode
  | fuel + 1, s => do
    let (a, rest) ← element s
    match skipWhitespace rest with
    | [] => .error .jsonDecode
    | c :: rest =>
      if c = close then return ([a], rest)
      else if c = .scalar ',' then
        let (as, rest) ← scanElements close element fuel (skipWhitespace rest)
        return (a :: as, rest)
      else .error .jsonDecode

/-- The contents of a container, from after its opening bracket. -/
def scanContents (close : CodePoint) (element : Str → Except DecodeError (α × Str)) (s : Str) :
    Except DecodeError (List α × Str) :=
  match skipWhitespace s with
  | [] => .error .jsonDecode
  | c :: rest =>
    if c = close then .ok ([], rest)
    else scanElements close element (rest.length + 2) (c :: rest)

end containers

/-- A member's key and the colon after it; the rest is at the member's value. -/
def scanKey : Str → Except DecodeError (Str × Str)
  | [] => .error .jsonDecode
  | c :: rest =>
    if c = .scalar '"' then do
      let (key, rest) ← scanString rest
      match skipWhitespace rest with
      | [] => .error .jsonDecode
      | d :: rest =>
        if d = .scalar ':' then return (key, skipWhitespace rest) else .error .jsonDecode
    else .error .jsonDecode

/-- One member of an object. -/
def scanMember (value : Str → Except DecodeError (Json × Str)) (s : Str) :
    Except DecodeError ((Str × Json) × Str) := do
  let (key, rest) ← scanKey s
  let (v, rest) ← value rest
  return ((key, v), rest)

/-- A repeated key keeps its first place and its last value. -/
def fieldsOf (members : List (Str × Json)) : List (Str × Json) :=
  members.foldl (fun fields kv => setEntry kv.1 kv.2 fields) []

/-- `scan_once`, given what reads the inside of an array and of an object. -/
def scanToken (array object : Str → Except DecodeError (Json × Str)) :
    Str → Except DecodeError (Json × Str)
  | [] => .error .jsonDecode
  | c :: rest =>
    if c = .scalar '"' then do
      let (s, rest) ← scanString rest
      return (.str s, rest)
    else if c = .scalar '{' then object rest
    else if c = .scalar '[' then array rest
    else
      match scanConstant (c :: rest) with
      | some r => .ok r
      | none =>
        match matchNumber (c :: rest) with
        | some (literal, rest) => do return (← literal.convert, rest)
        | none => .error .jsonDecode

/-- `scan_once` with `depth` more containers to enter. -/
def scanOnce : Nat → Str → Except DecodeError (Json × Str)
  | 0 => scanToken (fun _ => .error .recursion) (fun _ => .error .recursion)
  | depth + 1 => scanToken
    (fun rest => do
      let (items, rest) ← scanContents (.scalar ']') (scanOnce depth) rest
      return (.arr items, rest))
    (fun rest => do
      let (members, rest) ← scanContents (.scalar '}') (scanMember (scanOnce depth)) rest
      return (.obj (fieldsOf members), rest))

/-- `json.loads` of a string, where containers may be nested `depth` deep. -/
def loads (depth : Nat) (s : Str) : Except DecodeError Json := do
  require (s.head? ≠ some (.scalar '\uFEFF')) .jsonDecode
  let (v, rest) ← scanOnce depth (skipWhitespace s)
  require (skipWhitespace rest = []) .jsonDecode
  return v

/-! ### The scanner moves forward -/

/-- A scanner that succeeds has read at least one character. -/
def Consumes {α : Type} (scan : Str → Except DecodeError (α × Str)) : Prop :=
  ∀ s a rest, scan s = .ok (a, rest) → rest.length < s.length

theorem skipWhitespace_length_le (s : Str) : (skipWhitespace s).length ≤ s.length :=
  (List.dropWhile_sublist _).length_le

theorem hex4_length {s rest : Str} {n : Nat} (h : hex4 s = some (n, rest)) :
    rest.length < s.length := by
  unfold hex4 at h
  split at h
  · simp only [Option.bind_eq_bind, Option.bind_eq_some_iff, Option.pure_def, Option.some.injEq,
      Prod.mk.injEq] at h
    obtain ⟨_, _, _, _, _, _, _, _, _, rfl⟩ := h
    simp only [List.length_cons]
    omega
  · exact absurd h (by simp)

theorem lowSurrogate_length {s rest : Str} {n : Nat} (h : lowSurrogate s = some (n, rest)) :
    rest.length < s.length := by
  unfold lowSurrogate at h
  split at h
  · split_ifs at h
    split at h
    · next low rest' hhex =>
      have hlength := hex4_length hhex
      split_ifs at h
      obtain ⟨rfl, rfl⟩ := Prod.mk.inj (Option.some.inj h)
      simp only [List.length_cons]
      omega
    · exact absurd h (by simp)
  · exact absurd h (by simp)

theorem scanEscape_consumes : Consumes scanEscape := by
  intro s d rest h
  unfold scanEscape at h
  split at h
  · exact absurd h (by simp)
  · next c tail =>
    rw [List.length_cons]
    split_ifs at h with hu
    · split at h
      · exact absurd h (by simp)
      · next n after hhex =>
        have hlength := hex4_length hhex
        split at h
        · next low after' hlow =>
          obtain ⟨-, rfl⟩ := Prod.mk.inj (Except.ok.inj h)
          split_ifs at hlow
          have := lowSurrogate_length hlow
          omega
        · obtain ⟨-, rfl⟩ := Prod.mk.inj (Except.ok.inj h)
          omega
    · split at h
      · obtain ⟨-, rfl⟩ := Prod.mk.inj (Except.ok.inj h)
        omega
      · exact absurd h (by simp)

theorem scanEscape_ne_value (s : Str) : scanEscape s ≠ .error .value := by
  unfold scanEscape
  repeat' split
  all_goals simp

/-- A string that is scanned is shorter than the text, and no other failure than a
    `JSONDecodeError` comes from a string. -/
theorem scanChars_spec (fuel : Nat) (s : Str) :
    (∀ t rest, scanChars fuel s = .ok (t, rest) → rest.length < s.length) ∧
      scanChars fuel s ≠ .error .value := by
  induction fuel generalizing s with
  | zero => simp [scanChars]
  | succ fuel ih =>
    cases s with
    | nil => simp [scanChars]
    | cons c tail =>
      unfold scanChars
      split_ifs with hquote hcontrol hescape
      · exact ⟨fun t rest h => by simp_all, by simp⟩
      · simp
      · constructor
        · intro t rest h
          simp only [bind_eq_ok, pure_eq_ok] at h
          obtain ⟨⟨d, r₁⟩, hesc, ⟨t', r₂⟩, hrest, heq⟩ := h
          obtain ⟨rfl, rfl⟩ := Prod.mk.inj heq
          have h₁ := scanEscape_consumes _ _ _ hesc
          have h₂ := (ih r₁).1 _ _ hrest
          rw [List.length_cons]
          omega
        · intro h
          simp only [bind_eq_error, pure_ne_error, and_false, exists_false, or_false] at h
          rcases h with h | ⟨⟨d, r₁⟩, -, h⟩
          · exact scanEscape_ne_value _ h
          · exact (ih r₁).2 h
      · constructor
        · intro t rest h
          simp only [bind_eq_ok, pure_eq_ok] at h
          obtain ⟨⟨t', r₂⟩, hrest, heq⟩ := h
          obtain ⟨rfl, rfl⟩ := Prod.mk.inj heq
          have h₂ := (ih tail).1 _ _ hrest
          rw [List.length_cons]
          omega
        · intro h
          simp only [bind_eq_error, pure_ne_error, and_false, exists_false, or_false] at h
          exact (ih tail).2 h

theorem scanString_consumes : Consumes scanString := fun s => (scanChars_spec s.length s).1

theorem scanString_ne_value (s : Str) : scanString s ≠ .error .value :=
  (scanChars_spec s.length s).2

theorem scanInteger_length {s digits rest : Str} (h : scanInteger s = some (digits, rest)) :
    rest.length < s.length := by
  unfold scanInteger at h
  split at h
  · next c tail =>
    have hdrop : (tail.dropWhile CodePoint.isDigit).length ≤ tail.length :=
      (List.dropWhile_sublist _).length_le
    rw [List.length_cons]
    split_ifs at h
    · obtain ⟨-, rfl⟩ := Prod.mk.inj (Option.some.inj h)
      omega
    · obtain ⟨-, rfl⟩ := Prod.mk.inj (Option.some.inj h)
      omega
  · exact absurd h (by simp)

theorem scanSign_length (s : Str) : (scanSign s).2.length ≤ s.length := by
  unfold scanSign
  split
  · split_ifs <;> simp
  · simp

theorem scanFraction_length (s : Str) : (scanFraction s).2.length ≤ s.length := by
  unfold scanFraction
  split
  · next p d tail =>
    have hdrop : (tail.dropWhile CodePoint.isDigit).length ≤ tail.length :=
      (List.dropWhile_sublist _).length_le
    split_ifs
    · simp only [List.length_cons]
      omega
    · simp
  · simp

theorem scanExponentSign_length (s : Str) : (scanExponentSign s).2.length ≤ s.length := by
  unfold scanExponentSign
  split
  · split_ifs <;> simp
  · simp

theorem scanExponent_length (s : Str) : (scanExponent s).2.length ≤ s.length := by
  unfold scanExponent
  split
  · next e tail =>
    have hsign := scanExponentSign_length tail
    have hdrop := (List.dropWhile_sublist CodePoint.isDigit
      (l := (scanExponentSign tail).2)).length_le
    dsimp only
    split_ifs
    · simp only [List.length_cons]
      omega
    · simp
  · simp

theorem matchNumber_length {s rest : Str} {literal : NumberLiteral}
    (h : matchNumber s = some (literal, rest)) : rest.length < s.length := by
  unfold matchNumber at h
  dsimp only at h
  split at h
  · exact absurd h (by simp)
  · next digits after hint =>
    have h₁ := scanSign_length s
    have h₂ := scanInteger_length hint
    have h₃ := scanFraction_length after
    have h₄ := scanExponent_length (scanFraction after).2
    split_ifs at h
    all_goals
      obtain ⟨-, rfl⟩ := Prod.mk.inj (Option.some.inj h)
      omega

theorem scanConstant_length {s rest : Str} {v : Json} (h : scanConstant s = some (v, rest)) :
    rest.length < s.length := by
  obtain ⟨⟨name, w⟩, hmem, hprefix⟩ := List.exists_of_findSome?_eq_some h
  simp only [afterPrefix, Option.map_eq_some_iff, Prod.mk.injEq] at hprefix
  obtain ⟨r, hr, -, rfl⟩ := hprefix
  split_ifs at hr with htake
  obtain rfl := Option.some.inj hr
  have hnames : ∀ kv ∈ constants, 0 < kv.1.length := by decide
  have hname : 0 < name.length := hnames _ hmem
  have hlength := congrArg List.length htake
  rw [List.length_take] at hlength
  rw [List.length_drop]
  omega

section containers
variable {α : Type} {close : CodePoint} {element : Str → Except DecodeError (α × Str)}

theorem scanElements_length (hel : Consumes element) {fuel : Nat} {s rest : Str} {as : List α}
    (h : scanElements close element fuel s = .ok (as, rest)) : rest.length < s.length := by
  induction fuel generalizing s as with
  | zero => exact absurd h (by simp [scanElements])
  | succ fuel ih =>
    unfold scanElements at h
    simp only [bind_eq_ok] at h
    obtain ⟨⟨a, r₁⟩, hfirst, h⟩ := h
    have h₁ := hel _ _ _ hfirst
    have h₂ := skipWhitespace_length_le r₁
    dsimp only at h
    split at h
    · exact absurd h (by simp)
    · next c r₂ hskip =>
      rw [hskip, List.length_cons] at h₂
      split_ifs at h with hclose hcomma
      · obtain ⟨-, rfl⟩ := Prod.mk.inj (pure_eq_ok.mp h)
        omega
      · simp only [bind_eq_ok, pure_eq_ok] at h
        obtain ⟨⟨as', r₃⟩, hrest, heq⟩ := h
        obtain ⟨-, rfl⟩ := Prod.mk.inj heq
        have h₃ := ih hrest
        have h₄ := skipWhitespace_length_le r₂
        omega

theorem scanContents_consumes (hel : Consumes element) : Consumes (scanContents close element) := by
  intro s as rest h
  have hskip := skipWhitespace_length_le s
  unfold scanContents at h
  split at h
  · exact absurd h (by simp)
  · next c r heq =>
    rw [heq] at hskip
    split_ifs at h
    · obtain ⟨-, rfl⟩ := Prod.mk.inj (Except.ok.inj h)
      rw [List.length_cons] at hskip
      omega
    · have := scanElements_length hel h
      omega

end containers

theorem scanKey_consumes : Consumes scanKey := by
  intro s key rest h
  unfold scanKey at h
  split at h
  · exact absurd h (by simp)
  · next c tail =>
    split_ifs at h
    · simp only [bind_eq_ok] at h
      obtain ⟨⟨k, r₁⟩, hstring, h⟩ := h
      have h₁ := scanString_consumes _ _ _ hstring
      have h₂ := skipWhitespace_length_le r₁
      dsimp only at h
      split at h
      · exact absurd h (by simp)
      · next d r₂ hskip =>
        rw [hskip, List.length_cons] at h₂
        split_ifs at h
        obtain ⟨-, rfl⟩ := Prod.mk.inj (pure_eq_ok.mp h)
        have h₃ := skipWhitespace_length_le r₂
        rw [List.length_cons]
        omega

theorem scanKey_ne_value (s : Str) : scanKey s ≠ .error .value := by
  intro h
  unfold scanKey at h
  split at h
  · exact absurd h (by simp)
  · split_ifs at h
    · rcases bind_eq_error.mp h with h | ⟨⟨k, r⟩, -, h⟩
      · exact scanString_ne_value _ h
      · dsimp only at h
        split at h
        · exact absurd h (by simp)
        · split_ifs at h
          · exact absurd h pure_ne_error
          · exact absurd h (by simp)
    · exact absurd h (by simp)

theorem scanMember_consumes {value : Str → Except DecodeError (Json × Str)}
    (hvalue : Consumes value) : Consumes (scanMember value) := by
  intro s kv rest h
  unfold scanMember at h
  simp only [bind_eq_ok, pure_eq_ok] at h
  obtain ⟨⟨key, r₁⟩, hkey, ⟨v, r₂⟩, hv, heq⟩ := h
  obtain ⟨-, rfl⟩ := Prod.mk.inj heq
  have h₁ := scanKey_consumes _ _ _ hkey
  have h₂ := hvalue _ _ _ hv
  exact h₂.trans h₁

theorem scanToken_consumes {array object : Str → Except DecodeError (Json × Str)}
    (harray : Consumes array) (hobject : Consumes object) : Consumes (scanToken array object) := by
  intro s v rest h
  unfold scanToken at h
  split at h
  · exact absurd h (by simp)
  · next c tail =>
    split_ifs at h with hquote hbrace hbracket
    · simp only [bind_eq_ok, pure_eq_ok] at h
      obtain ⟨⟨t, r⟩, hstring, heq⟩ := h
      obtain ⟨-, rfl⟩ := Prod.mk.inj heq
      exact (scanString_consumes _ _ _ hstring).trans (by simp)
    · exact (hobject _ _ _ h).trans (by simp)
    · exact (harray _ _ _ h).trans (by simp)
    · split at h
      · next r hconst =>
        obtain rfl := Except.ok.inj h
        exact scanConstant_length hconst
      · split at h
        · next literal r hnumber =>
          simp only [bind_eq_ok, pure_eq_ok] at h
          obtain ⟨w, -, heq⟩ := h
          obtain ⟨-, rfl⟩ := Prod.mk.inj heq
          exact matchNumber_length hnumber
        · exact absurd h (by simp)

theorem consumes_map {α β : Type} {scan : Str → Except DecodeError (α × Str)} {f : α → β}
    (h : Consumes scan) : Consumes fun s => do
      let (a, rest) ← scan s
      return (f a, rest) := by
  intro s b rest hb
  simp only [bind_eq_ok, pure_eq_ok] at hb
  obtain ⟨⟨a, r⟩, ha, heq⟩ := hb
  obtain ⟨-, rfl⟩ := Prod.mk.inj heq
  exact h _ _ _ ha

/-- Every value takes at least one character. -/
theorem scanOnce_consumes (depth : Nat) : Consumes (scanOnce depth) := by
  induction depth with
  | zero =>
    apply scanToken_consumes
    · intro s a rest h
      exact absurd h (by simp)
    · intro s a rest h
      exact absurd h (by simp)
  | succ depth ih =>
    exact scanToken_consumes (consumes_map (scanContents_consumes ih))
      (consumes_map (f := fun members => Json.obj (fieldsOf members))
        (scanContents_consumes (scanMember_consumes ih)))

/-! ### Oversized literals -/

/-- An integer literal of more than 4300 digits starts here. -/
def OversizedLiteral (s : Str) : Prop :=
  ∃ negative digits rest,
    matchNumber s = some (.int negative digits, rest) ∧ maxStrDigits < digits.length

/-- Elements up to some point are decoded and followed by commas, and `inside` holds
    of the next one. -/
inductive ReachesElement {α : Type} (element : Str → Except DecodeError (α × Str))
    (inside : Str → Prop) : Str → Prop where
  | here {s : Str} (h : inside s) : ReachesElement element inside s
  | later {s rest next : Str} {a : α} (first : element s = .ok (a, rest))
      (comma : skipWhitespace rest = .scalar ',' :: next)
      (h : ReachesElement element inside (skipWhitespace next)) :
      ReachesElement element inside s

/-- The scanner reaches an oversized literal: it is the value here, or the value is a
    container whose contents are well formed up to a value that reaches one. -/
def ReachesOversized : Nat → Str → Prop
  | 0, s => OversizedLiteral s
  | depth + 1, s => OversizedLiteral s ∨
    (∃ rest, s = .scalar '[' :: rest ∧
      ReachesElement (scanOnce depth) (ReachesOversized depth) (skipWhitespace rest)) ∨
    (∃ rest, s = .scalar '{' :: rest ∧
      ReachesElement (scanMember (scanOnce depth))
        (fun t => ∃ key value, scanKey t = .ok (key, value) ∧ ReachesOversized depth value)
        (skipWhitespace rest))

section containers
variable {α : Type} {close : CodePoint} {element : Str → Except DecodeError (α × Str)}
  {inside : Str → Prop}

theorem scanElements_eq_value (hel : Consumes element) (hclose : close ≠ .scalar ',')
    (hinside : ∀ s, element s = .error .value ↔ inside s) {fuel : Nat} {s : Str}
    (hfuel : s.length < fuel) :
    scanElements close element fuel s = .error .value ↔ ReachesElement element inside s := by
  induction fuel generalizing s with
  | zero => omega
  | succ fuel ih =>
    unfold scanElements
    rw [bind_eq_error]
    constructor
    · intro h
      rcases h with h | ⟨⟨a, r₁⟩, hfirst, h⟩
      · exact .here ((hinside s).mp h)
      · have h₁ := hel _ _ _ hfirst
        have h₂ := skipWhitespace_length_le r₁
        dsimp only at h
        split at h
        · exact absurd h (by simp)
        · next c r₂ hskip =>
          rw [hskip, List.length_cons] at h₂
          split_ifs at h with h' hcomma
          · exact absurd h pure_ne_error
          · subst hcomma
            have h₃ := skipWhitespace_length_le r₂
            simp only [bind_eq_error, pure_ne_error, and_false, exists_false, or_false] at h
            exact .later hfirst hskip ((ih (by omega)).mp h)
          · exact absurd h (by simp)
    · intro h
      cases h with
      | here h => exact Or.inl ((hinside s).mpr h)
      | @later _ r₁ r₂ a hfirst hskip h =>
        have h₁ := hel _ _ _ hfirst
        have h₂ := skipWhitespace_length_le r₁
        have h₃ := skipWhitespace_length_le r₂
        rw [hskip, List.length_cons] at h₂
        refine Or.inr ⟨(a, r₁), hfirst, ?_⟩
        dsimp only
        simp only [hskip, if_neg hclose.symm, if_true, bind_eq_error]
        exact Or.inl ((ih (by omega)).mpr h)

omit close in
/-- Nothing is reached from where the element itself fails in another way. -/
theorem not_reachesElement (hinside : ∀ s, element s = .error .value ↔ inside s) {s : Str}
    (h : element s = .error .jsonDecode) : ¬ ReachesElement element inside s := by
  intro hreach
  cases hreach with
  | here hin => exact absurd (h.symm.trans ((hinside s).mpr hin)) (by simp)
  | later first _ _ => exact absurd (h.symm.trans first) (by simp)

theorem scanContents_eq_value (hel : Consumes element) (hclose : close ≠ .scalar ',')
    (hinside : ∀ s, element s = .error .value ↔ inside s)
    (hnil : element [] = .error .jsonDecode)
    (hend : ∀ rest, element (close :: rest) = .error .jsonDecode) {s : Str} :
    scanContents close element s = .error .value ↔
      ReachesElement element inside (skipWhitespace s) := by
  unfold scanContents
  cases hskip : skipWhitespace s with
  | nil => simpa using not_reachesElement hinside hnil
  | cons c rest =>
    dsimp only
    split_ifs with hc
    · subst hc
      simpa using not_reachesElement hinside (hend rest)
    · exact scanElements_eq_value hel hclose hinside (by simp)

end containers

/-- A number starts with a digit, or with a minus sign and a digit. -/
theorem matchNumber_head {s : Str} {r : NumberLiteral × Str} (h : matchNumber s = some r) :
    (∃ c t, s = c :: t ∧ c.isDigit = true) ∨
      ∃ d t, s = .scalar '-' :: d :: t ∧ d.isDigit = true := by
  have hint : ∀ {t : Str} {r : Str × Str}, scanInteger t = some r →
      ∃ c u, t = c :: u ∧ c.isDigit = true := by
    intro t r hr
    unfold scanInteger at hr
    split at hr
    · next c u =>
      split_ifs at hr with hzero hdigit
      · exact ⟨c, u, rfl, by rw [hzero]; rfl⟩
      · exact ⟨c, u, rfl, hdigit⟩
    · exact absurd hr (by simp)
  unfold matchNumber at h
  dsimp only at h
  split at h
  · exact absurd h (by simp)
  · next digits after hdigits =>
    obtain ⟨c, u, hrest, hc⟩ := hint hdigits
    unfold scanSign at hrest
    split at hrest
    · next e t =>
      split_ifs at hrest with hminus
      · dsimp only at hrest
        exact Or.inr ⟨c, u, by rw [hminus, hrest], hc⟩
      · exact Or.inl ⟨c, u, hrest, hc⟩
    · exact absurd hrest (by simp)

/-- A number is none of the names. -/
theorem scanConstant_of_matchNumber {s : Str} {r : NumberLiteral × Str}
    (h : matchNumber s = some r) : scanConstant s = none := by
  cases hconst : scanConstant s with
  | none => rfl
  | some w =>
    exfalso
    obtain ⟨⟨name, v⟩, hmem, hprefix⟩ := List.exists_of_findSome?_eq_some hconst
    simp only [afterPrefix, Option.map_eq_some_iff] at hprefix
    obtain ⟨r', hr', -⟩ := hprefix
    split_ifs at hr' with htake
    simp only [constants, List.mem_cons, Prod.mk.injEq, List.not_mem_nil, or_false] at hmem
    rcases matchNumber_head h with ⟨c, t, rfl, hdigit⟩ | ⟨d, t, rfl, hdigit⟩
    · rcases hmem with hn | hn | hn | hn | hn | hn <;> obtain ⟨rfl, -⟩ := hn <;>
        obtain ⟨rfl, -⟩ := List.cons.inj htake <;> exact absurd hdigit (by decide)
    · rcases hmem with hn | hn | hn | hn | hn | hn <;> obtain ⟨rfl, -⟩ := hn <;>
        obtain ⟨heq, htake⟩ := List.cons.inj htake <;>
        first
          | exact absurd heq (by decide)
          | (obtain ⟨rfl, -⟩ := List.cons.inj htake; exact absurd hdigit (by decide))

theorem convert_eq_value {literal : NumberLiteral} :
    literal.convert = .error .value ↔
      ∃ negative digits, literal = .int negative digits ∧ maxStrDigits < digits.length := by
  cases literal with
  | int negative digits =>
    unfold NumberLiteral.convert
    by_cases h : maxStrDigits < digits.length
    · simp [h]
    · simp [h]
  | float text => simp [NumberLiteral.convert]

/-- What `scan_once` does at the start of a token. -/
theorem scanToken_eq_value {array object : Str → Except DecodeError (Json × Str)} {s : Str} :
    scanToken array object s = .error .value ↔ OversizedLiteral s ∨
      (∃ rest, s = .scalar '[' :: rest ∧ array rest = .error .value) ∨
      (∃ rest, s = .scalar '{' :: rest ∧ object rest = .error .value) := by
  have hnumber : ∀ {c : CodePoint} {rest : Str}, OversizedLiteral (c :: rest) →
      c.isDigit = true ∨ c = .scalar '-' := by
    intro c rest h
    obtain ⟨negative, digits, after, hmatch, -⟩ := h
    rcases matchNumber_head hmatch with ⟨d, t, heq, hdigit⟩ | ⟨d, t, heq, -⟩
    · exact Or.inl ((List.cons.inj heq).1 ▸ hdigit)
    · exact Or.inr (List.cons.inj heq).1
  unfold scanToken
  cases s with
  | nil =>
    constructor
    · intro h
      exact absurd h (by simp)
    · intro h
      rcases h with ⟨_, _, _, hmatch, _⟩ | ⟨_, heq, _⟩ | ⟨_, heq, _⟩
      · exact absurd (matchNumber_length hmatch) (by simp)
      · exact absurd heq (by simp)
      · exact absurd heq (by simp)
  | cons c rest =>
    dsimp only
    by_cases hquote : c = .scalar '"'
    · subst hquote
      rw [if_pos rfl]
      constructor
      · intro h
        simp only [bind_eq_error, pure_ne_error, and_false, exists_false, or_false] at h
        exact absurd h (scanString_ne_value rest)
      · intro h
        rcases h with h | ⟨_, heq, _⟩ | ⟨_, heq, _⟩
        · exact absurd (hnumber h) (by decide)
        · exact absurd (List.cons.inj heq).1 (by decide)
        · exact absurd (List.cons.inj heq).1 (by decide)
    by_cases hbrace : c = .scalar '{'
    · subst hbrace
      rw [if_neg (by decide), if_pos rfl]
      constructor
      · intro h
        exact Or.inr (Or.inr ⟨rest, rfl, h⟩)
      · intro h
        rcases h with h | ⟨_, heq, _⟩ | ⟨_, heq, h⟩
        · exact absurd (hnumber h) (by decide)
        · exact absurd (List.cons.inj heq).1 (by decide)
        · rw [(List.cons.inj heq).2]
          exact h
    by_cases hbracket : c = .scalar '['
    · subst hbracket
      rw [if_neg (by decide), if_neg (by decide), if_pos rfl]
      constructor
      · intro h
        exact Or.inr (Or.inl ⟨rest, rfl, h⟩)
      · intro h
        rcases h with h | ⟨_, heq, h⟩ | ⟨_, heq, _⟩
        · exact absurd (hnumber h) (by decide)
        · rw [(List.cons.inj heq).2]
          exact h
        · exact absurd (List.cons.inj heq).1 (by decide)
    -- a name or a number
    rw [if_neg hquote, if_neg hbrace, if_neg hbracket]
    constructor
    · intro h
      split at h
      · exact absurd h (by simp)
      · split at h
        · next literal after hmatch =>
          simp only [bind_eq_error, pure_ne_error, and_false, exists_false, or_false] at h
          obtain ⟨negative, digits, rfl, hlong⟩ := convert_eq_value.mp h
          exact Or.inl ⟨negative, digits, after, hmatch, hlong⟩
        · exact absurd h (by simp)
    · intro h
      rcases h with ⟨negative, digits, after, hmatch, hlong⟩ | ⟨_, heq, _⟩ | ⟨_, heq, _⟩
      · rw [scanConstant_of_matchNumber hmatch, hmatch]
        simp only [bind_eq_error]
        exact Or.inl (convert_eq_value.mpr ⟨negative, digits, rfl, hlong⟩)
      · exact absurd (List.cons.inj heq).1 hbracket
      · exact absurd (List.cons.inj heq).1 hbrace

theorem scanMember_eq_value {value : Str → Except DecodeError (Json × Str)} {reaches : Str → Prop}
    (hvalue : ∀ s, value s = .error .value ↔ reaches s) (s : Str) :
    scanMember value s = .error .value ↔
      ∃ key rest, scanKey s = .ok (key, rest) ∧ reaches rest := by
  unfold scanMember
  simp only [bind_eq_error, pure_ne_error, and_false, exists_false, or_false]
  constructor
  · intro h
    rcases h with h | ⟨⟨key, rest⟩, hkey, h⟩
    · exact absurd h (scanKey_ne_value s)
    · exact ⟨key, rest, hkey, (hvalue rest).mp h⟩
  · intro h
    obtain ⟨key, rest, hkey, h⟩ := h
    exact Or.inr ⟨(key, rest), hkey, (hvalue rest).mpr h⟩

/-- A closing bracket starts no value. -/
theorem scanOnce_close (depth : Nat) (rest : Str) :
    scanOnce depth (.scalar ']' :: rest) = .error .jsonDecode := by
  have hconst : scanConstant (.scalar ']' :: rest) = none := by
    simp [scanConstant, constants, afterPrefix, str]
  cases depth <;> simp [scanOnce, scanToken, hconst, matchNumber, scanSign, scanInteger,
    CodePoint.isDigit]

theorem scanOnce_nil (depth : Nat) : scanOnce depth [] = .error .jsonDecode := by
  cases depth <;> rfl

/-- **The scanner raises the `ValueError` of `int` exactly when it reaches an
    oversized literal.** The induction is on how many containers may be entered. -/
theorem scanOnce_eq_value (depth : Nat) (s : Str) :
    scanOnce depth s = .error .value ↔ ReachesOversized depth s := by
  induction depth generalizing s with
  | zero =>
    unfold scanOnce ReachesOversized
    rw [scanToken_eq_value]
    simp
  | succ depth ih =>
    unfold scanOnce ReachesOversized
    rw [scanToken_eq_value]
    have harray : ∀ rest, scanContents (.scalar ']') (scanOnce depth) rest = .error .value ↔
        ReachesElement (scanOnce depth) (ReachesOversized depth) (skipWhitespace rest) :=
      fun rest => scanContents_eq_value (scanOnce_consumes depth) (by decide) ih
        (scanOnce_nil depth) (scanOnce_close depth)
    have hobject : ∀ rest, scanContents (.scalar '}') (scanMember (scanOnce depth)) rest =
        .error .value ↔ ReachesElement (scanMember (scanOnce depth))
          (fun t => ∃ key value, scanKey t = .ok (key, value) ∧ ReachesOversized depth value)
          (skipWhitespace rest) :=
      fun rest => scanContents_eq_value (scanMember_consumes (scanOnce_consumes depth)) (by decide)
        (scanMember_eq_value ih) rfl (fun _ => rfl)
    simp only [bind_eq_error, pure_ne_error, and_false, exists_false, or_false, harray, hobject]

/-- The byte order mark starts no value. -/
theorem not_reachesOversized_bom (depth : Nat) (rest : Str) :
    ¬ ReachesOversized depth (skipWhitespace (.scalar '\uFEFF' :: rest)) := by
  have hskip : skipWhitespace (.scalar '\uFEFF' :: rest) = .scalar '\uFEFF' :: rest := by
    unfold skipWhitespace
    rw [List.dropWhile_cons_of_neg (by decide)]
  have hconst : scanConstant (.scalar '\uFEFF' :: rest) = none := by
    simp [scanConstant, constants, afterPrefix, str]
  rw [hskip, ← scanOnce_eq_value]
  cases depth <;> simp [scanOnce, scanToken, hconst, matchNumber, scanSign, scanInteger,
    CodePoint.isDigit]

/-- **`json.loads` raises a plain `ValueError` exactly on the texts whose scan reaches an
    oversized literal.** -/
theorem loads_eq_value {depth : Nat} {s : Str} :
    loads depth s = .error .value ↔ ReachesOversized depth (skipWhitespace s) := by
  unfold loads
  simp only [bind_eq_error, require_eq_error, require_eq_ok, reduceCtorEq, and_false, false_or,
    pure_ne_error, exists_false, or_false, scanOnce_eq_value]
  constructor
  · intro h
    obtain ⟨_, -, h⟩ := h
    exact h
  · intro h
    refine ⟨(), ?_, h⟩
    intro hbom
    obtain ⟨rest, rfl⟩ := List.head?_eq_some_iff.mp hbom
    exact not_reachesOversized_bom depth rest h

end Py
