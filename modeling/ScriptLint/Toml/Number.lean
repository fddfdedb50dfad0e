import ScriptLint.Toml.Text

/-!
# Numbers, dates and times in a TOML document

What starts with a digit or a sign is read as a date or time if it can be one, else as a number with
a fraction or exponent, else as an integer.

## Main definitions

* `Toml.readMoment` — a date, a time or both
* `Toml.readReal` — a number with a fraction or an exponent
* `Toml.readInteger` — an integer in any base
* `Toml.readNumber` — any of these
-/

namespace ScriptLint.Toml

open Number

/-- A decimal digit. -/
def isDigit (c : Char) : Bool :=
  '0' ≤ c && c ≤ '9'

/-- The number that decimal digits mean. -/
def decimal (digits : List Char) : Nat :=
  digits.foldl (fun n c => 10 * n + (c.toNat - 48)) 0

/-! ## Dates and times -/

/-- Reads exactly `size` digits. -/
def readDigits (size : Nat) (text : List Char) : Reading Nat :=
  let digits := (text.take size).takeWhile isDigit
  if digits.length = size then .ok (decimal digits, text.drop size) else .error (.soft {})

/-- Reads two digits of a number between `low` and `high`. -/
def readTwo (low high : Nat) (text : List Char) : Reading Nat :=
  (readDigits 2 text).bind fun (n, rest) =>
    if low ≤ n ∧ n ≤ high then .ok (n, rest) else .error (.soft { cause := some .outOfRange })

/-- Reads a given character. -/
def readChar (c : Char) : List Char → Reading Unit
  | d :: rest => if c = d then .ok ((), rest) else .error (.soft {})
  | [] => .error (.soft {})

/-- The number of days of a month. -/
def daysOfMonth (year month : Nat) : Nat :=
  if month = 2 then
    if year % 4 = 0 ∧ (year % 100 ≠ 0 ∨ year % 400 = 0) then 29 else 28
  else if month = 4 ∨ month = 6 ∨ month = 9 ∨ month = 11 then 30
  else 31

/-- A number with at least `size` digits. -/
def padded (size n : Nat) : String :=
  String.ofList (Binary64.paddedDigits size n)

/-- Reads a date. After the year and a hyphen nothing else can be meant. -/
def readDate (text : List Char) : Reading String :=
  (readDigits 4 text).bind fun (year, rest) =>
  (readChar '-' rest).bind fun (_, rest) => committed <|
  (readTwo 1 12 rest).bind fun (month, rest) =>
  (readChar '-' rest).bind fun (_, rest) =>
  (readTwo 1 31 rest).bind fun (day, rest) =>
    if day ≤ daysOfMonth year month then
      .ok (padded 4 year ++ "-" ++ padded 2 month ++ "-" ++ padded 2 day, rest)
    else .error (.soft { cause := some .outOfRange })

/-- The digits of a second after the point, of which nine count, without zeros at their end. -/
def secondDigits (digits : List Char) : String :=
  match ((digits.take 9).reverse.dropWhile (· == '0')).reverse with
  | [] => ""
  | kept => String.ofList ('.' :: kept)

/-- Reads the fraction of a second, if there is one. -/
def readFraction : List Char → String × List Char
  | '.' :: rest =>
    let digits := rest.takeWhile isDigit
    if digits.isEmpty then ("", '.' :: rest) else (secondDigits digits, rest.dropWhile isDigit)
  | text => ("", text)

/-- Reads a time. After the hour and a colon nothing else can be meant. -/
def readTime (text : List Char) : Reading String :=
  (readTwo 0 23 text).bind fun (hour, rest) =>
  (readChar ':' rest).bind fun (_, rest) => committed <|
  (readTwo 0 59 rest).bind fun (minute, rest) =>
  (readChar ':' rest).bind fun (_, rest) =>
  (readTwo 0 60 rest).bind fun (second, rest) =>
    let (fraction, rest) := readFraction rest
    .ok (padded 2 hour ++ ":" ++ padded 2 minute ++ ":" ++ padded 2 second ++ fraction, rest)

/-- Reads the distance from universal time. -/
def readOffset : List Char → Reading String
  | [] => .error (.soft {})
  | c :: rest =>
    if c = 'Z' ∨ c = 'z' then .ok ("Z", rest)
    else if c = '+' ∨ c = '-' then
      committed <| inside "time offset" <|
        (readTwo 0 23 rest).bind fun (hour, rest) =>
        (readChar ':' rest).bind fun (_, rest) =>
        (readTwo 0 59 rest).bind fun (minute, rest) =>
          let sign := if c = '-' ∧ hour + minute ≠ 0 then "-" else "+"
          .ok (sign ++ padded 2 hour ++ ":" ++ padded 2 minute, rest)
    else .error (.soft {})

/-- Reads what may stand here: nothing if it does not. -/
def optional (r : Reading String) (text : List Char) : Reading String :=
  match r with
  | .error f => if f.final then .error f else .ok ("", text)
  | ok => ok

/-- Reads a time after a date, with the mark between them. -/
def readTimeAfterDate : List Char → Reading String
  | [] => .error (.soft {})
  | c :: rest =>
    if c = 'T' ∨ c = 't' ∨ c = ' ' then
      (readTime rest).bind fun (time, rest) =>
      (optional (readOffset rest) rest).bind fun (offset, rest) => .ok ("T" ++ time ++ offset, rest)
    else .error (.soft {})

/-- Reads a date, a time or both. -/
def readMoment (text : List Char) : Reading Value :=
  inside "date-time" <|
    match readDate text with
    | .ok (date, rest) =>
      (optional (readTimeAfterDate rest) rest).map fun (time, rest) => (.moment (date ++ time), rest)
    | .error f =>
      if f.final then .error f
      else (readTime text).map fun (time, rest) => (.moment time, rest)

/-! ## Numbers -/

/-- Reads digits of a base with single underscores between them; the first one is read already. -/
def readMoreDigits (isDigit : Char → Bool) : List Char → Reading (List Char)
  | '_' :: c :: rest =>
    if isDigit c then after c (readMoreDigits isDigit rest)
    else .error (.hard { expected := ["digit"] })
  | ['_'] => .error (.hard { expected := ["digit"] })
  | c :: rest => if isDigit c then after c (readMoreDigits isDigit rest) else .ok ([], c :: rest)
  | [] => .ok ([], [])

/-- Reads one or more digits of a base. -/
def readBaseDigits (isDigit : Char → Bool) : List Char → Reading (List Char)
  | c :: rest => if isDigit c then after c (readMoreDigits isDigit rest) else .error (.soft {})
  | [] => .error (.soft {})

/-- A sign and what follows it. -/
def splitSign : List Char → Bool × List Char
  | '-' :: rest => (true, rest)
  | '+' :: rest => (false, rest)
  | text => (false, text)

/-- Reads the digits of a decimal integer: a lone zero, or digits of which the first is none. -/
def readWhole (text : List Char) : Reading (List Char) :=
  inside "integer" <|
    match text with
    | '0' :: rest => .ok (['0'], rest)
    | text => readBaseDigits isDigit text

/-- Reads the digits after a point, if there is one. -/
def readPlaces : List Char → Reading (Option (List Char))
  | '.' :: rest =>
    (committed (expecting ["digit"] (readBaseDigits isDigit rest))).map
      fun (d, rest) => (some d, rest)
  | text => .ok (none, text)

/-- Reads an exponent, if there is one. -/
def readExponent : List Char → Reading (Option Int)
  | c :: rest =>
    if c = 'e' ∨ c = 'E' then
      let (negative, rest) := splitSign rest
      (committed (readBaseDigits isDigit rest)).map fun (digits, rest) =>
        let n : Int := decimal digits
        (some (if negative then -n else n), rest)
    else .ok (none, c :: rest)
  | [] => .ok (none, [])

/-- What follows a word, if it stands here. -/
def afterWord? : List Char → List Char → Option (List Char)
  | [], text => some text
  | _ :: _, [] => none
  | w :: word, c :: text => if w = c then afterWord? word text else none

/-- Reads infinity or what is no number. -/
def readSpecial (text : List Char) : Reading Value :=
  let (negative, rest) := splitSign text
  match afterWord? "inf".toList rest, afterWord? "nan".toList rest with
  | some rest, _ => .ok (.real (.infinite negative), rest)
  | _, some rest => .ok (.real (.nan negative), rest)
  | none, none => .error (.soft {})

/-- Reads a number with a fraction, an exponent or both. A number that is too large is none, unless
it is negative. -/
def readPlainReal (text : List Char) : Reading Value :=
  let (negative, rest) := splitSign text
  (readWhole rest).bind fun (whole, rest) =>
  (readPlaces rest).bind fun (places, rest) =>
  (readExponent rest).bind fun (exponent, rest) =>
    if places.isNone && exponent.isNone then .error (.soft {})
    else
      let places := places.getD []
      let x := Binary64.ofDecimal negative (decimal (whole ++ places))
        (exponent.getD 0 - places.length)
      if x = .infinite false then .error (.hard {}) else .ok (.real x, rest)

/-- Reads a number with a fraction or exponent, or one of the special numbers. -/
def readReal (text : List Char) : Reading Value :=
  inside "floating-point number" <|
    match readPlainReal text with
    | .error f => if f.final then .error f else readSpecial text
    | ok => ok

/-- An integer of 64 bits. -/
def integerOf (i : Int) (rest : List Char) : Reading Value :=
  if i > 9223372036854775807 then .error (.hard { cause := some .tooLarge })
  else if i < -9223372036854775808 then .error (.hard { cause := some .tooSmall })
  else .ok (.integer i, rest)

/-- Reads the digits of an integer in another base than ten. -/
def readBased (construct : String) (base : Nat) (text : List Char) : Reading Value :=
  let isBaseDigit := fun c => (hexValue? c).any (· < base)
  (committed (inside construct (readBaseDigits isBaseDigit text))).bind fun (digits, rest) =>
    integerOf (digits.foldl (fun n c => base * n + (hexValue? c).getD 0) 0 : Nat) rest

/-- Reads an integer. -/
def readInteger : List Char → Reading Value
  | '0' :: 'x' :: rest => readBased "hexadecimal integer" 16 rest
  | '0' :: 'o' :: rest => readBased "octal integer" 8 rest
  | '0' :: 'b' :: rest => readBased "binary integer" 2 rest
  | text =>
    let (negative, rest) := splitSign text
    (readWhole rest).bind fun (digits, rest) =>
      let n : Int := decimal digits
      integerOf (if negative then -n else n) rest

/-- Reads a date, a time or a number. -/
def readNumber (text : List Char) : Reading Value :=
  match readMoment text with
  | .error f =>
    if f.final then .error f
    else
      match readReal text with
      | .error f => if f.final then .error f else readInteger text
      | ok => ok
  | ok => ok

end ScriptLint.Toml
