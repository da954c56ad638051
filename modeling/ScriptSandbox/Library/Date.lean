import ScriptSandbox.Library.Member

/-!
# Dates

A date is a count of milliseconds since the beginning of 1970, or no number at all. The calendar is
the Gregorian one, extended in both directions, and the only time zone is that of Greenwich.
-/

namespace ScriptSandbox.Library

open Exec

/-! ## The calendar -/

def dayLength : Int := 86400000

def farthestDate : Int := 8640000000000000

/-- The number of the day on which a month of a year begins; months are counted from zero, and may
lie outside the year. -/
def monthStart (year month : Int) : Int :=
  let year := year + month / 12
  let month := month % 12
  -- years that begin in March have their leap day at the end
  let y := if month < 2 then year - 1 else year
  let m := (month + 10) % 12
  365 * y + y / 4 - y / 100 + y / 400 + (153 * m + 2) / 5 - 719468

/-- The year, the month from zero on and the day from one on of a day with a number. -/
def dateOfDay (day : Int) : Int × Int × Int :=
  let z := day + 719468
  let era := z / 146097
  let doe := z % 146097
  let yoe := (doe - doe / 1460 + doe / 36524 - doe / 146096) / 365
  let doy := doe - (365 * yoe + yoe / 4 - yoe / 100)
  let mp := (5 * doy + 2) / 153
  let month := (mp + 2) % 12
  let year := yoe + era * 400 + (if month < 2 then 1 else 0)
  (year, month, doy - (153 * mp + 2) / 5 + 1)

/-- The parts of a date. -/
structure DateParts where
  year : Int
  month : Int
  day : Int
  hours : Int
  minutes : Int
  seconds : Int
  millis : Int

namespace DateParts

/-- The parts of a date that is so many milliseconds after the beginning of 1970. -/
def of (t : Int) : DateParts :=
  let (year, month, day) := dateOfDay (t / dayLength)
  let r := t % dayLength
  { year, month, day
    hours := r / 3600000
    minutes := r / 60000 % 60
    seconds := r / 1000 % 60
    millis := r % 1000 }

/-- The milliseconds from the beginning of 1970 to a date; parts may lie outside their range. -/
def time (p : DateParts) : Int :=
  (monthStart p.year p.month + p.day - 1) * dayLength + p.hours * 3600000 + p.minutes * 60000
    + p.seconds * 1000 + p.millis

def toList (p : DateParts) : List Int :=
  [p.year, p.month, p.day, p.hours, p.minutes, p.seconds, p.millis]

/-- The date with some parts; those that are not given are the first possible ones. -/
def ofList (ps : List Int) : DateParts :=
  let part (i : Nat) : Int := ps.getD i (if i == 2 then 1 else 0)
  ⟨part 0, part 1, part 2, part 3, part 4, part 5, part 6⟩

end DateParts

/-- The day of the week, counted from Sunday. -/
def weekDay (t : Int) : Int := (t / dayLength + 4) % 7

/-- A count of milliseconds as a date, unless it is too far away. -/
def clipTime (t : Int) : Float :=
  if -farthestDate ≤ t && t ≤ farthestDate then Numeral.ofInt t else Numeral.nan

/-- A number as a date. -/
def clipFloat (x : Float) : Float :=
  if Numeral.isFinite x && Float.abs x ≤ 8640000000000000.0 then clipTime (Numeral.truncate x)
  else Numeral.nan

/-- A date as a count of milliseconds, if it is one. -/
def timeOf? (x : Float) : Option Int :=
  if Numeral.isFinite x then some (Numeral.truncate x) else none

/-! ## Dates as texts -/

/-- A number with at least so many digits. -/
def padded (width : Nat) (n : Int) : String :=
  let s := toString n.natAbs
  (if n < 0 then "-" else "") ++ "".pushn '0' (width - s.length) ++ s

def dayNames : List String := ["Sun", "Mon", "Tue", "Wed", "Thu", "Fri", "Sat"]

def monthNames : List String :=
  ["Jan", "Feb", "Mar", "Apr", "May", "Jun", "Jul", "Aug", "Sep", "Oct", "Nov", "Dec"]

/-- The time of day in hours, minutes and seconds. -/
def clockText (p : DateParts) : String :=
  padded 2 p.hours ++ ":" ++ padded 2 p.minutes ++ ":" ++ padded 2 p.seconds

/-- A date in the form that computers exchange. -/
def isoText (t : Int) : String :=
  let p := DateParts.of t
  let year :=
    if 0 ≤ p.year && p.year ≤ 9999 then padded 4 p.year
    else (if p.year < 0 then "-" else "+") ++ padded 6 p.year.natAbs
  year ++ "-" ++ padded 2 (p.month + 1) ++ "-" ++ padded 2 p.day ++ "T" ++ clockText p ++ "."
    ++ padded 3 p.millis ++ "Z"

/-- A date, a time of day, or both, in words. -/
def wordsText (t : Int) (withDate withTime : Bool) : String :=
  let p := DateParts.of t
  let date := dayNames.getD (weekDay t).toNat "" ++ " " ++ monthNames.getD p.month.toNat "" ++ " "
    ++ padded 2 p.day ++ " " ++ padded 4 p.year
  let time := clockText p ++ " GMT+0000"
  if withDate && withTime then date ++ " " ++ time else if withDate then date else time

def mailText (t : Int) : String :=
  let p := DateParts.of t
  dayNames.getD (weekDay t).toNat "" ++ ", " ++ padded 2 p.day ++ " "
    ++ monthNames.getD p.month.toNat "" ++ " " ++ padded 4 p.year ++ " " ++ clockText p ++ " GMT"

/-- A date, a time of day, or both, as they are usual in one country. -/
def localText (t : Int) (withDate withTime : Bool) : String :=
  let p := DateParts.of t
  let date := padded 2 (p.month + 1) ++ "/" ++ padded 2 p.day ++ "/" ++ padded 4 p.year
  let time := padded 2 ((p.hours + 11) % 12 + 1) ++ ":" ++ padded 2 p.minutes ++ ":"
    ++ padded 2 p.seconds ++ (if p.hours < 12 then " AM" else " PM")
  if withDate && withTime then date ++ ", " ++ time else if withDate then date else time

/-! ## Dates from texts -/

/-- So many digits, as a number, and what follows them. -/
def takeDigits (count : Nat) (cs : List Char) : Option (Nat × List Char) :=
  let ds := cs.take count
  if ds.length == count && ds.all Char.isDigit then
    some (ds.foldl (fun n c => 10 * n + (c.toNat - 48)) 0, cs.drop count)
  else none

/-- A sign and so many digits after it, or the other count without a sign. -/
def takeYear (cs : List Char) : Option (Int × List Char) :=
  match cs with
  | '+' :: cs => (takeDigits 6 cs).map fun (n, cs) => ((n : Int), cs)
  | '-' :: cs => (takeDigits 6 cs).map fun (n, cs) => (-(n : Int), cs)
  | cs => (takeDigits 4 cs).map fun (n, cs) => ((n : Int), cs)

/-- Two digits after a separator, or a number that stands for them. -/
def takePart (sep : Char) (default : Nat) (cs : List Char) : Option (Nat × List Char) :=
  match cs with
  | c :: rest => if c == sep then takeDigits 2 rest else some (default, cs)
  | [] => some (default, [])

/-- A fraction of a second, in milliseconds, if there is one. -/
def takeFraction (cs : List Char) : Option (Nat × List Char) :=
  match cs with
  | '.' :: rest =>
    let ds := rest.takeWhile Char.isDigit
    if ds.isEmpty then none
    else
      let first := (ds.take 3) ++ List.replicate (3 - ds.length) '0'
      (takeDigits 3 first).map fun (n, _) => (n, rest.drop ds.length)
  | cs => some (0, cs)

/-- A time zone, in minutes. -/
def takeZone (cs : List Char) : Option Int :=
  let zone (sign : Int) (cs : List Char) : Option Int := do
    let (h, cs) ← takeDigits 2 cs
    let (m, cs) ← match cs with
      | ':' :: cs => takeDigits 2 cs
      | cs => takeDigits 2 cs
    if cs.isEmpty then some (sign * (60 * h + m)) else none
  match cs with
  | [] | ['Z'] => some 0
  | '+' :: cs => zone 1 cs
  | '-' :: cs => zone (-1) cs
  | _ => none

/-- The date that a text in the form that computers exchange names. -/
def dateOfText? (s : String) : Option Int := do
  let (year, cs) ← takeYear s.toList
  let (month, cs) ← takePart '-' 1 cs
  let (day, cs) ← takePart '-' 1 cs
  let (time, cs) ← match cs with
    | 'T' :: cs | ' ' :: cs => do
      let (h, cs) ← takeDigits 2 cs
      let (m, cs) ← takePart ':' 60 cs
      let (s, cs) ← takePart ':' 0 cs
      let (ms, cs) ← takeFraction cs
      let inDay := h < 24 || (h == 24 && m == 0 && s == 0 && ms == 0)
      if inDay && m < 60 && s < 60 then some ([(h : Int), m, s, ms], cs) else none
    | cs => some ([], cs)
  if 1 ≤ month && month ≤ 12 && 1 ≤ day && day ≤ 31 then
    let zone ← takeZone cs
    some ((DateParts.ofList (year :: (month - 1 : Int) :: (day : Int) :: time)).time - zone * 60000)
  else none

def parseDate (s : Str) : Float :=
  match s.toString?.bind dateOfText? with
  | some t => clipTime t
  | none => Numeral.nan

/-! ## Functions -/

def presentTime : Exec Int := do return (← get).presentTime

def thisDate (v : Value) : Exec (Nat × Float) := do
  match v with
  | .obj a =>
    match (← getObj a).kind with
    | .date t => return (a, t)
    | _ => typeError "not a Date object"
  | _ => typeError "not a Date object"

/-- The date of some parts; a year of two digits lies in the twentieth century. -/
def dateOfParts (args : List Value) : Exec Float := do
  let xs ← (args.take 7).mapM toNumber
  if !(xs.all Numeral.isFinite) then return Numeral.nan
  let p := DateParts.ofList (xs.map Numeral.truncate)
  let p := if 0 ≤ p.year && p.year ≤ 99 then { p with year := p.year + 1900 } else p
  return clipTime p.time

def constructDate (c : NativeCall) : Exec Value := do
  if !c.constructs then return .ofString (wordsText (← presentTime) true true)
  let proto ← prototypeFor c.newTarget .datePrototype
  let t ← match c.args.toList with
    | [] => do pure (clipTime (← presentTime))
    | [v] =>
      match ← thisDateOrNone v with
      | some t => pure t
      | none =>
        match ← toPrimitive v .default with
        | .str s => pure (parseDate s)
        | p => do pure (clipFloat (← toNumber p))
    | args => dateOfParts args
  return .obj (← alloc { proto := some proto, kind := .date t })
where
  /-- The date that a value is, if it is one. -/
  thisDateOrNone (v : Value) : Exec (Option Float) := do
    match v with
    | .obj a =>
      match (← getObj a).kind with
      | .date t => return some t
      | _ => return none
    | _ => return none

def lastPart (i : Nat) : Nat := if i ≤ 2 then 2 else 6

/-- Changes a part of a date, and those after it that are given. -/
def setParts (i : Nat) (c : NativeCall) : Exec Value := do
  let (a, t) ← thisDate c.this
  let xs ← ((c.args.toList.take (lastPart i + 1 - i))).mapM toNumber
  let base : Option Int := if t.isNaN && i == 0 then some 0 else timeOf? t
  let r : Float :=
    match base with
    | some t =>
      if xs.isEmpty || !(xs.all Numeral.isFinite) then Numeral.nan
      else
        let parts := (DateParts.of t).toList
        let parts := parts.take i ++ xs.map Numeral.truncate ++ parts.drop (i + xs.length)
        clipTime (DateParts.ofList parts).time
    | none => Numeral.nan
  setKind a (.date r)
  return .ofFloat r

def dateText (c : NativeCall) (f : Int → String) : Exec Value := do
  let (_, t) ← thisDate c.this
  return .ofString (((timeOf? t).map f).getD "Invalid Date")

def dateNumber (c : NativeCall) (f : Int → Int) : Exec Value := do
  let (_, t) ← thisDate c.this
  return ((timeOf? t).map fun t => Value.ofInt (f t)).getD (.num Numeral.nan)

def datePrimitive (c : NativeCall) : Exec Value := do
  if !c.this.isObject then typeError "not an object"
  match c.arg 0 with
  | .str s =>
    match s.toLossy with
    | "number" | "integer" => firstPrimitive c.this [valueOfKey, toStringKey]
    | "string" | "default" => firstPrimitive c.this [toStringKey, valueOfKey]
    | _ => typeError "invalid hint"
  | _ => typeError "invalid hint"

/-- Functions of dates. -/
def dateFn (f : DateFn) (c : NativeCall) : Exec Value := do
  match f with
  | .construct => constructDate c
  | .now => return .ofInt (← presentTime)
  | .parse => return .ofFloat (parseDate (← toStr (c.arg 0)))
  | .utc => return .ofFloat (← dateOfParts c.args.toList)
  | .getField i _ => dateNumber c fun t => (DateParts.of t).toList.getD i 0
  | .setField i _ => setParts i c
  | .getDay _ => dateNumber c weekDay
  | .getTime =>
    let (_, t) ← thisDate c.this
    return .ofFloat t
  | .setTime =>
    let (a, _) ← thisDate c.this
    let t := clipFloat (← toNumber (c.arg 0))
    setKind a (.date t)
    return .ofFloat t
  | .getTimezoneOffset => dateNumber c fun _ => 0
  | .getYear => dateNumber c fun t => (DateParts.of t).year - 1900
  | .toISOString =>
    let (_, t) ← thisDate c.this
    match timeOf? t with
    | some t => return .ofString (isoText t)
    | none => rangeError "Date value is NaN"
  | .toJSON =>
    let v := Value.obj (← toObject c.this)
    match ← toPrimitive v .number with
    | .num x => if !(Numeral.isFinite x) then return .null
    | _ => pure ()
    let m ← getNamed v "toISOString"
    if !(← isCallable m) then typeError "object needs toISOString method"
    call m v #[]
  | .toString => dateText c fun t => wordsText t true true
  | .toDateString => dateText c fun t => wordsText t true false
  | .toTimeString => dateText c fun t => wordsText t false true
  | .toUTCString => dateText c mailText
  | .toLocale part => dateText c fun t => localText t (part != 2) (part != 1)
  | .toPrimitive => datePrimitive c

def dateStatics : List Member :=
  [method "now" (.date .now) 0, method "parse" (.date .parse) 1, method "UTC" (.date .utc) 7]

/-- The parts of a date, in order. -/
def partNames : List String :=
  ["FullYear", "Month", "Date", "Hours", "Minutes", "Seconds", "Milliseconds"]

/-- The methods that look at one part of a date, or change it. -/
def partMethods : List Member :=
  partNames.zipIdx.flatMap fun (name, i) =>
    [method ("get" ++ name) (.date (.getField i false)) 0,
      method ("getUTC" ++ name) (.date (.getField i true)) 0,
      method ("set" ++ name) (.date (.setField i false)) (lastPart i + 1 - i),
      method ("setUTC" ++ name) (.date (.setField i true)) (lastPart i + 1 - i)]

def dateMethods : List Member :=
  [method "valueOf" (.date .getTime) 0, method "toString" (.date .toString) 0,
    ⟨KnownSymbol.toPrimitive.key, "[Symbol.toPrimitive]",
      .function (.date .toPrimitive) 1 none⟩,
    method "toUTCString" (.date .toUTCString) 0, sameAs (.named "toGMTString") "toUTCString",
    method "toISOString" (.date .toISOString) 0, method "toDateString" (.date .toDateString) 0,
    method "toTimeString" (.date .toTimeString) 0,
    method "toLocaleString" (.date (.toLocale 3)) 0,
    method "toLocaleDateString" (.date (.toLocale 1)) 0,
    method "toLocaleTimeString" (.date (.toLocale 2)) 0,
    method "getTimezoneOffset" (.date .getTimezoneOffset) 0, method "getTime" (.date .getTime) 0,
    method "getYear" (.date .getYear) 0, method "getDay" (.date (.getDay false)) 0,
    method "getUTCDay" (.date (.getDay true)) 0, method "setTime" (.date .setTime) 1]
    ++ partMethods ++ [method "toJSON" (.date .toJSON) 1]

end ScriptSandbox.Library
