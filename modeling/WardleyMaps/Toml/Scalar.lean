/-
Module: WardleyMaps.Toml.Scalar
Purpose: Reading keys, strings, numbers, dates and times of the TOML format.
Main exports: readTomlKey, readTomlString, readTomlScalar
-/
import WardleyMaps.Text.Cut
import WardleyMaps.Toml.Value

namespace WardleyMaps

open Text

/-!
Every reader returns a value and the text after it, or nothing when the text does not begin with
what it reads. The rest is never longer than the text, and shorter wherever a reader is repeated.
-/

/-- Spaces and tabs. -/
def isTomlBlank (c : Char) : Bool :=
  c = ' ' || c = '\t'

/-- The text after its leading spaces and tabs. -/
def skipTomlBlanks (t : Text) : Text :=
  t.dropWhile isTomlBlank

/-- Control characters other than the tab; they must not occur in strings and comments. -/
def isTomlControl (c : Char) : Bool :=
  (c.toNat < 32 && c ≠ '\t') || c.toNat = 127

/-- The characters of bare keys: ASCII letters and digits, the hyphen and the underscore. -/
def isBareKey (c : Char) : Bool :=
  c.isAlphanum || c = '-' || c = '_'

/-- The value of a hexadecimal digit. -/
def hexValue? (c : Char) : Option Nat :=
  if c.isDigit then some (c.toNat - 48)
  else if 'a' ≤ c && c ≤ 'f' then some (c.toNat - 87)
  else if 'A' ≤ c && c ≤ 'F' then some (c.toNat - 55)
  else none

/-- The number of exactly so many hexadecimal digits, put behind the digits read before. -/
def takeHex : Nat → Nat → Text → Option (Nat × Text)
  | 0, value, t => some (value, t)
  | _ + 1, _, [] => none
  | count + 1, value, c :: rest =>
      (hexValue? c).bind fun digit => takeHex count (16 * value + digit) rest

/-- A character by its number in so many hexadecimal digits; surrogates are no characters. -/
def readHexChar (count : Nat) (t : Text) : Option (Char × Text) :=
  (takeHex count 0 t).bind fun (value, rest) =>
    if value.isValidChar then some (Char.ofNat value, rest) else none

/-- The character that is escaped by what follows a backslash. -/
def readEscape : Text → Option (Char × Text)
  | 'b' :: rest => some ('\x08', rest)
  | 't' :: rest => some ('\t', rest)
  | 'n' :: rest => some ('\n', rest)
  | 'f' :: rest => some ('\x0c', rest)
  | 'r' :: rest => some ('\r', rest)
  | '"' :: rest => some ('"', rest)
  | '\\' :: rest => some ('\\', rest)
  | 'u' :: rest => readHexChar 4 rest
  | 'U' :: rest => readHexChar 8 rest
  | _ => none

theorem length_le_of_takeHex {count value found : Nat} {t rest : Text}
    (h : takeHex count value t = some (found, rest)) : rest.length ≤ t.length := by
  induction count generalizing value t with
  | zero =>
    simp only [takeHex, Option.some.injEq, Prod.mk.injEq] at h
    simp [h.2]
  | succ count ih =>
    cases t with
    | nil => simp [takeHex] at h
    | cons c cs =>
      simp only [takeHex, Option.bind_eq_some_iff] at h
      obtain ⟨digit, _, hd⟩ := h
      exact Nat.le_succ_of_le (ih hd)

theorem length_le_of_readHexChar {count : Nat} {t rest : Text} {c : Char}
    (h : readHexChar count t = some (c, rest)) : rest.length ≤ t.length := by
  simp only [readHexChar, Option.bind_eq_some_iff, Prod.exists] at h
  obtain ⟨value, later, hv, hc⟩ := h
  split at hc
  · simp only [Option.some.injEq, Prod.mk.injEq] at hc
    exact hc.2 ▸ length_le_of_takeHex hv
  · exact absurd hc (by simp)

/-- An escape takes at least one character. -/
theorem length_lt_of_readEscape {t rest : Text} {c : Char} (h : readEscape t = some (c, rest)) :
    rest.length < t.length := by
  unfold readEscape at h
  split at h
  case h_8 => exact Nat.lt_succ_of_le (length_le_of_readHexChar h)
  case h_9 => exact Nat.lt_succ_of_le (length_le_of_readHexChar h)
  case h_10 => exact absurd h (by simp)
  all_goals
    simp only [Option.some.injEq, Prod.mk.injEq] at h
    simp [h.2]

/-- A string on one line up to its closing double quote, after the opening one. -/
def readBasic (t : Text) : Option (Text × Text) :=
  match t with
  | [] => none
  | c :: rest =>
      if c = '"' then some ([], rest)
      else if c = '\\' then
        match h : readEscape rest with
        | some (escaped, later) =>
            have : later.length < rest.length := length_lt_of_readEscape h
            (readBasic later).map fun (read, after) => (escaped :: read, after)
        | none => none
      else if isTomlControl c then none
      else (readBasic rest).map fun (read, after) => (c :: read, after)
termination_by t.length
decreasing_by all_goals (simp_wf; try omega)

/-- What follows a backslash that continues a string on the next line: blanks up to the end of the
line, and all blanks and line ends after it. -/
def continueLine? (t : Text) : Option Text :=
  let isSpace (c : Char) : Bool := isTomlBlank c || c = '\n'
  match t with
  | [] => none
  | c :: rest =>
      if c = '\n' then some (rest.dropWhile isSpace)
      else if isTomlBlank c then
        match rest.dropWhile isTomlBlank with
        | [] => some []
        | '\n' :: later => some (later.dropWhile isSpace)
        | _ => none
      else none

theorem length_dropWhile_le {p : Char → Bool} (t : Text) : (t.dropWhile p).length ≤ t.length :=
  (List.dropWhile_suffix p).length_le

theorem length_lt_of_continueLine? {t rest : Text} (h : continueLine? t = some rest) :
    rest.length < t.length := by
  unfold continueLine? at h
  dsimp only at h
  split at h
  · exact absurd h (by simp)
  · split at h
    · cases h
      exact Nat.lt_succ_of_le (length_dropWhile_le _)
    · split at h
      · next c cs _ _ =>
        split at h
        · cases h; simp
        · next later heq =>
          cases h
          have h1 := length_dropWhile_le (p := isTomlBlank) cs
          rw [heq] at h1
          have h2 := length_dropWhile_le (p := fun c => isTomlBlank c || decide (c = '\n')) later
          simp only [List.length_cons] at *
          omega
        · exact absurd h (by simp)
      · exact absurd h (by simp)

/-- A string over several lines up to its three closing double quotes. -/
def readMultiline (t : Text) : Option (Text × Text) :=
  match t with
  | [] => none
  | c :: rest =>
      match after? ['"', '"', '"'] (c :: rest) with
      | some after => some ([], after)
      | none =>
          if c = '\\' then
            match hc : continueLine? rest with
            | some later =>
                have : later.length < rest.length := length_lt_of_continueLine? hc
                readMultiline later
            | none =>
                match h : readEscape rest with
                | some (escaped, later) =>
                    have : later.length < rest.length := length_lt_of_readEscape h
                    (readMultiline later).map fun (read, after) => (escaped :: read, after)
                | none => none
          else if isTomlControl c && c ≠ '\n' then none
          else (readMultiline rest).map fun (read, after) => (c :: read, after)
termination_by t.length
decreasing_by all_goals (simp_wf; try omega)

/-- A string without escapes up to its closing single quote. -/
def readLiteralString (t : Text) : Option (Text × Text) :=
  (cutAt '\'' t).bind fun (read, rest) => if read.any isTomlControl then none else some (read, rest)

/-- A string without escapes up to its three closing single quotes. -/
def readMultilineLiteral (t : Text) : Option (Text × Text) :=
  (cut ['\'', '\'', '\''] t).bind fun (read, rest) =>
    if read.any fun c => isTomlControl c && c ≠ '\n' then none else some (read, rest)

/-- Up to two more quotes behind three closing ones belong to the string. -/
def addQuotes (quote : Char) : Text × Text → Text × Text
  | (read, c :: d :: rest) =>
      if c = quote then
        if d = quote then (read ++ [quote, quote], rest) else (read ++ [quote], d :: rest)
      else (read, c :: d :: rest)
  | (read, [c]) => if c = quote then (read ++ [quote], []) else (read, [c])
  | (read, []) => (read, [])

/-- The text after a line end that follows three opening quotes at once. -/
def dropFirstLineEnd : Text → Text
  | '\n' :: rest => rest
  | t => t

/-- A string of any of the four kinds. -/
def readTomlString (t : Text) : Option (Text × Text) :=
  match after? ['"', '"', '"'] t, after? ['\'', '\'', '\''] t, t with
  | some rest, _, _ => (readMultiline (dropFirstLineEnd rest)).map (addQuotes '"')
  | _, some rest, _ => (readMultilineLiteral (dropFirstLineEnd rest)).map (addQuotes '\'')
  | _, _, '"' :: rest => readBasic rest
  | _, _, '\'' :: rest => readLiteralString rest
  | _, _, _ => none

/-- One part of a key: bare, or a string on one line. -/
def readKeyPart : Text → Option (Text × Text)
  | '"' :: rest => readBasic rest
  | '\'' :: rest => readLiteralString rest
  | t =>
      let part := t.takeWhile isBareKey
      if part.isEmpty then none else some (part, t.dropWhile isBareKey)

/-- The parts of a key between points, at most as many as the fuel allows. -/
def readKeyParts : Nat → Text → Option (List Text × Text)
  | 0, _ => none
  | fuel + 1, t => do
      let (part, rest) ← readKeyPart t
      match skipTomlBlanks rest with
      | '.' :: later =>
          let (parts, after) ← readKeyParts fuel (skipTomlBlanks later)
          some (part :: parts, after)
      | after => some ([part], after)

/-- A key with all its parts. -/
def readTomlKey (t : Text) : Option (List Text × Text) :=
  readKeyParts (t.length + 1) t

/-- Digits that satisfy a test, with single underscores between them, and what follows. The first
digit is required. -/
def spanUnderscored (isDigit : Char → Bool) : Text → Text × Text
  | [] => ([], [])
  | c :: rest =>
      if isDigit c then
        let (digits, after) := spanUnderscored isDigit rest
        (c :: digits, after)
      else
        match rest with
        | d :: later =>
            if c = '_' && isDigit d then
              let (digits, after) := spanUnderscored isDigit later
              (d :: digits, after)
            else ([], c :: rest)
        | [] => ([], c :: rest)

/-- Digits as above; an underscore must not come first. -/
def readUnderscored (isDigit : Char → Bool) : Text → Option (Text × Text)
  | c :: rest => if isDigit c then some (spanUnderscored isDigit (c :: rest)) else none
  | [] => none

/-- The number of digits in a base. -/
def baseValue (base : Nat) (digits : Text) : Nat :=
  digits.foldl (fun value c => base * value + (hexValue? c).getD 0) 0

/-- An integer in hexadecimal, binary or octal digits. -/
def readBased : Text → Option (TomlValue × Text)
  | '0' :: mark :: rest =>
      let digits (base : Nat) : Option (TomlValue × Text) :=
        let isDigit (c : Char) : Bool :=
          ((hexValue? c).map fun digit => decide (digit < base)).getD false
        (readUnderscored isDigit rest).map fun (digits, after) =>
          (.integer (baseValue base digits), after)
      if mark = 'x' then digits 16 else if mark = 'b' then digits 2
      else if mark = 'o' then digits 8 else none
  | _ => none

/-- The fraction of a number: a point and digits. -/
def spanFraction (t : Text) : Text × Text :=
  match t with
  | '.' :: rest => (readUnderscored Char.isDigit rest).getD ([], t)
  | _ => ([], t)

/-- The exponent of a number, with its sign. -/
def spanTomlExponent (t : Text) : Option Int × Text :=
  match t with
  | c :: rest =>
      if c = 'e' || c = 'E' then
        let (negative, digits) := spanSign rest
        match readUnderscored Char.isDigit digits with
        | some (digits, after) =>
            let value : Int := baseValue 10 digits
            (some (if negative then -value else value), after)
        | none => (none, t)
      else (none, t)
  | [] => (none, t)

/-- A decimal integer or float. Only a zero may begin with a zero, and an integer must not have more
digits than may be converted. -/
def readDecimal (t : Text) : Option (TomlValue × Text) :=
  let (negative, rest) := spanSign t
  let whole : Option (Text × Text) :=
    match rest with
    | '0' :: after => some (['0'], after)
    | _ => readUnderscored Char.isDigit rest
  whole.bind fun (whole, rest) =>
    let (fraction, rest) := spanFraction rest
    let (exponent, rest) := spanTomlExponent rest
    if fraction.isEmpty && exponent.isNone then
      let value : Int := baseValue 10 whole
      if maxIntegerDigits < whole.length then none
      else some (.integer (if negative then -value else value), rest)
    else
      let shift := exponent.getD 0 - fraction.length
      some (.float (.ofDecimal negative (baseValue 10 (whole ++ fraction)) shift), rest)

/-- An infinity or the undefined number, perhaps with a sign. -/
def readSpecial (t : Text) : Option (TomlValue × Text) :=
  let (negative, rest) := spanSign t
  match after? "inf".toList rest, after? "nan".toList rest with
  | some after, _ => some (.float (.infinite negative), after)
  | _, some after => some (.float .nan, after)
  | _, _ => none

/-- The number of exactly so many decimal digits. -/
def takeDigits (count : Nat) (t : Text) : Option (Nat × Text) :=
  let digits := t.take count
  if digits.length = count && digits.all Char.isDigit then some (baseValue 10 digits, t.drop count)
  else none

/-- A number of two digits below a bound. -/
def takeTwo (least bound : Nat) (t : Text) : Option (Nat × Text) :=
  (takeDigits 2 t).bind fun (n, rest) => if least ≤ n && n < bound then some (n, rest) else none

/-- A number of two digits below a bound after a given character. -/
def takeTwoAfter (mark : Char) (least bound : Nat) : Text → Option (Nat × Text)
  | c :: rest => if c = mark then takeTwo least bound rest else none
  | [] => none

/-- The fraction of a second in microseconds; further digits are dropped. -/
def spanMicros (t : Text) : Nat × Text :=
  match t with
  | '.' :: rest =>
      let digits := rest.takeWhile Char.isDigit
      if digits.isEmpty then (0, t)
      else
        let six := digits.take 6
        (baseValue 10 six * Nat.pow 10 (6 - six.length), rest.dropWhile Char.isDigit)
  | _ => (0, t)

/-- A time of day. -/
def readTomlTime (t : Text) : Option (TomlTime × Text) := do
  let (hour, rest) ← takeTwo 0 24 t
  let (minute, rest) ← takeTwoAfter ':' 0 60 rest
  let (second, rest) ← takeTwoAfter ':' 0 60 rest
  let (micros, rest) := spanMicros rest
  some ({ hour, minute, second, micros }, rest)

/-- A day as it is written, whether or not the month has it. -/
def readDayNumbers (t : Text) : Option (TomlDate × Text) := do
  let (year, rest) ← takeDigits 4 t
  let (month, rest) ← takeTwoAfter '-' 1 13 rest
  let (day, rest) ← takeTwoAfter '-' 1 32 rest
  some ({ year, month, day }, rest)

/-- How many days a month has. -/
def daysInMonth (year month : Nat) : Nat :=
  let leap := year % 4 = 0 && (year % 100 ≠ 0 || year % 400 = 0)
  if month = 2 then (if leap then 29 else 28)
  else if month = 4 || month = 6 || month = 9 || month = 11 then 30
  else 31

/-- Days that the calendar has. -/
def TomlDate.exists (d : TomlDate) : Bool :=
  0 < d.year && d.day ≤ daysInMonth d.year d.month

/-- The offset after a time, in minutes from universal time. -/
def spanOffset (t : Text) : Option Int × Text :=
  match t with
  | c :: rest =>
      if c = 'Z' || c = 'z' then (some 0, rest)
      else if c = '+' || c = '-' then
        let minutes := do
          let (hours, rest) ← takeTwo 0 24 rest
          let (minutes, rest) ← takeTwoAfter ':' 0 60 rest
          some (60 * hours + minutes, rest)
        match minutes with
        | some (minutes, rest) => (some (if c = '-' then -(minutes : Int) else minutes), rest)
        | none => (none, t)
      else (none, t)
  | [] => (none, t)

/-- The time after a day, with its offset. -/
def readTimePart : Text → Option (TomlTime × Option Int × Text)
  | c :: rest =>
      if c = 'T' || c = 't' || c = ' ' then
        (readTomlTime rest).map fun (time, rest) =>
          let (offset, rest) := spanOffset rest
          (time, offset, rest)
      else none
  | [] => none

/-- A day, a point in time or a time of day; the outer option tells whether the text begins like
one, the inner one whether the calendar has it. -/
def readMoment (t : Text) : Option (Option (TomlValue × Text)) :=
  match readDayNumbers t with
  | some (d, rest) =>
      some <|
        if d.exists then
          match readTimePart rest with
          | some (time, offset, rest) => some (.dateTime d time offset, rest)
          | none => some (.date d, rest)
        else none
  | none => (readTomlTime t).map fun (time, rest) => some (.time time, rest)

/-- A boolean. -/
def readBoolean (t : Text) : Option (TomlValue × Text) :=
  match after? "true".toList t, after? "false".toList t with
  | some rest, _ => some (.boolean true, rest)
  | _, some rest => some (.boolean false, rest)
  | _, _ => none

/-- A value that is no array and no table. -/
def readTomlScalar (t : Text) : Option (TomlValue × Text) :=
  if t.head? = some '"' || t.head? = some '\'' then
    (readTomlString t).map fun (read, rest) => (.text read, rest)
  else
    match readBoolean t, readMoment t with
    | some found, _ => some found
    | none, some found => found
    | none, none => readBased t <|> readDecimal t <|> readSpecial t

end WardleyMaps
