import ScriptSandbox.Url.Encode
import ScriptSandbox.Text.Class

/-!
# Hosts

The host of a special scheme is a domain in ASCII form, an IPv4 address or an IPv6 address. A
domain is taken in lower case, and a label outside ASCII is written in the bootstring form with
the mark `xn--`. A host that ends in a number is an IPv4 address, in one to four parts, each
decimal, octal or hexadecimal. The host of any other scheme is kept as written, encoded.
-/

namespace ScriptSandbox.Url

/-- A host. -/
inductive Host where
  | domain (name : List Char)
  | ipv4 (address : Nat)
  /-- The eight pieces of an address. -/
  | ipv6 (pieces : List Nat)
  deriving DecidableEq, Repr, Inhabited

/-- The parts of a list between the elements equal to `sep`. -/
def splitAt (sep : Char) : List Char → List (List Char)
  | [] => [[]]
  | c :: cs =>
    if c == sep then [] :: splitAt sep cs
    else
      match splitAt sep cs with
      | [] => [[c]]
      | p :: ps => (c :: p) :: ps

/-! ## IPv4 -/

/-- The value of digits in a base, if all of them belong to it. -/
def digitsIn? (base : Nat) (ds : List Char) : Option Nat :=
  ds.foldlM (fun n c => do
    let d ← hexDigit? c
    if d < base then some (n * base + d) else none) 0

/-- One part of an address: `0x` marks hexadecimal, a leading `0` octal; no digits are zero. -/
def ipv4Part? : List Char → Option Nat
  | [] => none
  | '0' :: 'x' :: ds | '0' :: 'X' :: ds => digitsIn? 16 ds
  | '0' :: d :: ds => digitsIn? 8 (d :: ds)
  | ds => digitsIn? 10 ds

/-- The parts of a domain, without an empty last one. -/
def domainParts (name : List Char) : List (List Char) :=
  let parts := splitAt '.' name
  if parts.getLast? == some [] && parts.length > 1 then parts.dropLast else parts

/-- Whether a domain has to be an address. -/
def endsInNumber (name : List Char) : Bool :=
  match (domainParts name).getLast? with
  | none => false
  | some last =>
    (!last.isEmpty && last.all fun c => '0' ≤ c && c ≤ '9')
      || (match last with
        | '0' :: 'x' :: ds | '0' :: 'X' :: ds => ds.all fun c => (hexDigit? c).isSome
        | _ => false)

/-- An address from its parts: all but the last are bytes, the last fills the rest. -/
def ipv4? (name : List Char) : Option Nat := do
  let parts := domainParts name
  if parts.length > 4 then none
  let ns ← parts.mapM ipv4Part?
  let last ← ns.getLast?
  let front := ns.dropLast
  if front.any (· > 255) then none
  if last ≥ Nat.pow 256 (5 - ns.length) then none
  let (sum, _) := front.foldl (fun (s, k) n => (s + n * Nat.pow 256 k, k - 1)) (last, 3)
  some sum

/-- An address with dots. -/
def ipv4Text (n : Nat) : List Char :=
  (".".intercalate ([n / 16777216 % 256, n / 65536 % 256, n / 256 % 256, n % 256].map
    toString)).toList

/-! ## IPv6 -/

/-- A piece of up to four hexadecimal digits. -/
def ipv6Piece? (ds : List Char) : Option Nat :=
  if ds.isEmpty || ds.length > 4 then none else digitsIn? 16 ds

/-- The two pieces of an address with dots at the end. -/
def ipv6Tail? (ds : List Char) : Option (List Nat) := do
  let parts := splitAt '.' ds
  if parts.length != 4 then none
  let ns ← parts.mapM fun p =>
    if p.isEmpty || (p.length > 1 && p.head? == some '0') then none
    else (digitsIn? 10 p).bind fun n => if n < 256 then some n else none
  match ns with
  | [a, b, c, d] => some [a * 256 + b, c * 256 + d]
  | _ => none

/-- The pieces of one side of an address. -/
def ipv6Side? (s : List Char) : Option (List Nat) :=
  if s.isEmpty then some []
  else
    let parts := splitAt ':' s
    let rec go : List (List Char) → Option (List Nat)
      | [] => some []
      | [p] => if p.contains '.' then ipv6Tail? p else (ipv6Piece? p).map fun n => [n]
      | p :: ps => do return (← ipv6Piece? p) :: (← go ps)
    go parts

/-- The place of the first `::` in a text. -/
def splitDouble : List Char → Option (List Char × List Char)
  | ':' :: ':' :: rest => some ([], rest)
  | c :: rest => (splitDouble rest).map fun (a, b) => (c :: a, b)
  | [] => none

/-- An address; `::` stands for as many zeros as are lacking, at least one. -/
def ipv6? (s : List Char) : Option (List Nat) :=
  match splitDouble s with
  | none => do
    let ps ← ipv6Side? s
    if ps.length == 8 then some ps else none
  | some (a, b) => do
    if (splitDouble b).isSome || b.head? == some ':' then none
    if a.contains '.' then none
    let l ← ipv6Side? a
    let r ← ipv6Side? b
    if l.length + r.length > 7 then none
    some (l ++ List.replicate (8 - l.length - r.length) 0 ++ r)

/-- The first longest run of zeros, as its start and length. -/
def longestZeros (ps : List Nat) : Nat × Nat :=
  let step (st : (Nat × Nat) × Nat × Nat) (p : Nat) : (Nat × Nat) × Nat × Nat :=
    let ((best, len), i, run) := st
    let run := if p == 0 then run + 1 else 0
    (if run > len then (i + 1 - run, run) else (best, len), i + 1, run)
  (ps.foldl step ((0, 0), 0, 0)).1

/-- An address in brackets; the longest run of two or more zeros is left out. -/
def ipv6Text (ps : List Nat) : List Char :=
  let (start, len) := longestZeros ps
  let hex (ns : List Nat) : String :=
    ":".intercalate (ns.map fun n => String.ofList (Nat.toDigits 16 n))
  let body :=
    if len < 2 then hex ps else hex (ps.take start) ++ "::" ++ hex (ps.drop (start + len))
  '[' :: body.toList ++ [']']

/-! ## Domains -/

/-- The next bias of the bootstring form. -/
def adaptBias (delta points : Nat) (first : Bool) : Nat :=
  let d := if first then delta / 700 else delta / 2
  let rec go : Nat → Nat → Nat → Nat
    | 0, d, k => k + 36 * d / (d + 38)
    | fuel + 1, d, k => if d > 455 then go fuel (d / 35) (k + 36) else k + 36 * d / (d + 38)
  go 64 (d + d / points) 0

/-- A digit of the bootstring form. -/
def bootDigit (n : Nat) : Char := if n < 26 then Char.ofNat (97 + n) else Char.ofNat (22 + n)

/-- A number of variable length in the bootstring form. -/
def bootNumber (bias : Nat) : (fuel : Nat) → (q k : Nat) → List Char
  | 0, _, _ => []
  | fuel + 1, q, k =>
    let t := if k ≤ bias then 1 else if k ≥ bias + 26 then 26 else k - bias
    if q < t then [bootDigit q]
    else bootDigit (t + (q - t) % (36 - t)) :: bootNumber bias fuel ((q - t) / (36 - t)) (k + 36)

/-- What an encoding of a label has reached. -/
structure BootState where
  out : List Char
  /-- The least code point not handled yet. -/
  n : Nat := 128
  delta : Nat := 0
  bias : Nat := 72
  /-- How many characters have been handled. -/
  done : Nat

/-- Handles one code point of the label, `m`, for all its places. -/
def bootRound (label : List Char) (basic : Nat) (s : BootState) (m : Nat) : BootState :=
  let s := { s with delta := s.delta + (m - s.n) * (s.done + 1), n := m }
  let s := label.foldl (fun s c =>
    if c.toNat < m then { s with delta := s.delta + 1 }
    else if c.toNat == m then
      { s with
        out := s.out ++ bootNumber s.bias 64 s.delta 36
        bias := adaptBias s.delta (s.done + 1) (s.done == basic)
        delta := 0
        done := s.done + 1 }
    else s) s
  { s with delta := s.delta + 1, n := s.n + 1 }

def labelToAscii (label : List Char) : List Char :=
  if label.all (·.toNat < 128) then label
  else
    let basic := label.filter (·.toNat < 128)
    let points := ((label.map Char.toNat).filter (· ≥ 128)).mergeSort.eraseDups
    let out := if basic.isEmpty then [] else basic ++ ['-']
    let s := points.foldl (bootRound label basic.length) { out, done := basic.length }
    'x' :: 'n' :: '-' :: '-' :: s.out

/-- A letter of a domain in lower case. -/
def lowerChar (c : Char) : Char :=
  let n := c.toNat
  if n < 128 then c.toLower
  else if (0xC0 ≤ n && n ≤ 0xDE && n != 0xD7) || (0x391 ≤ n && n ≤ 0x3A9)
      || (0x410 ≤ n && n ≤ 0x42F)
  then Char.ofNat (n + 32)
  else if 0x400 ≤ n && n ≤ 0x40F then Char.ofNat (n + 80)
  else if 0x100 ≤ n && n ≤ 0x137 && n % 2 == 0 then Char.ofNat (n + 1)
  else if 0xFF01 ≤ n && n ≤ 0xFF5E then (Char.ofNat (n - 0xFEE0)).toLower
  else c

/-- Characters that no domain may hold. -/
def forbiddenInDomain (c : Char) : Bool :=
  c.toNat ≤ 32 || c.toNat == 127 || "#%/:<>?@[\\]^|".toList.contains c

/-- Characters that vanish from a domain. -/
def ignoredInDomain (c : Char) : Bool :=
  let n := c.toNat
  n == 0xAD || n == 0x200B || n == 0x2060 || n == 0xFEFF || n == 0x200C || n == 0x200D

def domainToAscii? (s : List Char) : Option (List Char) := do
  let mapped := (s.filter fun c => !ignoredInDomain c).map fun c =>
    if c == '。' || c == '．' || c == '｡' then '.' else lowerChar c
  if mapped.any forbiddenInDomain then none
  let labels := (splitAt '.' mapped).map labelToAscii
  if mapped.any (fun c => c.toNat ≥ 128 && Text.isBlank c) then none
  if labels.contains "xn--".toList then none
  some (['.'].intercalate labels)

/-- Characters that no host of another scheme may hold. -/
def forbiddenInHost (c : Char) : Bool :=
  c == '\x00' || c == '\t' || c == '\n' || c == '\r' || " #/:<>?@[\\]^|".toList.contains c

/-- The host that a text names; a special scheme takes domains, others keep the text. -/
def host? (special : Bool) (s : List Char) : Option Host :=
  match s with
  | '[' :: rest =>
    if rest.getLast? == some ']' then (ipv6? rest.dropLast).map Host.ipv6 else none
  | s =>
    if special then do
      let name ← domainToAscii? (← decode? s)
      if name.isEmpty then none
      if endsInNumber name then (ipv4? name).map Host.ipv4 else some (.domain name)
    else if s.any forbiddenInHost then none
    else some (.domain (encode isControl s))

/-- The written form of a host. -/
def Host.text : Host → List Char
  | .domain name => name
  | .ipv4 n => ipv4Text n
  | .ipv6 ps => ipv6Text ps

end ScriptSandbox.Url
