/-
**Documents from YAML text.** Settings files are written in a part of YAML: block mappings and
sequences, flow collections, plain and quoted scalars, comments, and the markers of one document.
A text with anchors, tags, block scalars or explicit keys has no document here.

The text is taken as a list of characters that know their line and column (`place`), since in blocks
the column of a line decides what it belongs to. Readers take such a list and leave what follows.
What a plain scalar is taken for is left to the reader of the document (`Document.plain`).
-/
import WalletLedger.Document

set_option autoImplicit false

namespace WalletLedger.Yaml

/-! ## Characters and their places -/

/-- A character and where it stands. -/
structure Placed where
  char : Char
  line : Nat
  column : Nat

abbrev Input := List Placed

/-- The characters of a text in their places; every line break is a line feed. -/
def placeFrom : Nat → Nat → List Char → Input
  | _, _, [] => []
  | line, column, '\r' :: '\n' :: rest => ⟨'\n', line, column⟩ :: placeFrom (line + 1) 0 rest
  | line, column, c :: rest =>
    if c = '\n' || c = '\r' then ⟨'\n', line, column⟩ :: placeFrom (line + 1) 0 rest
    else ⟨c, line, column⟩ :: placeFrom line (column + 1) rest

/-- A text in its places, without the mark that may stand before it. -/
def place (s : String) : Input :=
  match s.toList with
  | '\uFEFF' :: rest => placeFrom 0 0 rest
  | cs => placeFrom 0 0 cs

def isBlank (c : Char) : Bool := c = ' ' || c = '\t'

/-- The characters that have a meaning inside a flow collection. -/
def isFlow (c : Char) : Bool := [',', '[', ']', '{', '}'].contains c

/-- The characters that start no plain scalar. -/
def isIndicator (c : Char) : Bool :=
  [',', '[', ']', '{', '}', '#', '&', '*', '!', '|', '>', '\x27', '"', '%', '@', '\x60'].contains c

def starts (s : Input) (c : Char) : Bool := s.head?.any (·.char = c)

/-- Whether a word ends here. -/
def atWordEnd (s : Input) : Bool := s.head?.all fun p => isBlank p.char || p.char = '\n'

/-- Whether a character stands here as a word of its own. -/
def startsWord (s : Input) (c : Char) : Bool := starts s c && atWordEnd s.tail

/-- Whether a marker of three characters stands here at the start of a line. -/
def atMarker (s : Input) (marker : Char) : Bool :=
  s.head?.any (·.column = 0) && (s.take 3).map (·.char) = [marker, marker, marker] &&
    atWordEnd (s.drop 3)

/-- Whether a colon stands here that ends a key. -/
def atColon (flow : Bool) (s : Input) : Bool :=
  starts s ':' && (atWordEnd s.tail || (flow && s.tail.head?.any fun p => isFlow p.char))

/-- What follows the blanks on this line. -/
def skipBlanks (s : Input) : Input := s.dropWhile fun p => isBlank p.char

/-! ## From one content to the next -/

/-- What is being skipped. -/
inductive Gap where
  /-- Something that a comment may not touch. -/
  | touching
  | blank
  | comment

/-- **What follows blanks, line breaks and comments.** In a block a tab may not stand where a line
is indented, so it is not skipped there. -/
def skipGap (flow : Bool) : (tabs : Bool) → Gap → Input → Input
  | _, _, [] => []
  | tabs, gap, p :: rest =>
    if p.char = '\n' then skipGap flow flow .blank rest
    else
      match gap with
      | .comment => skipGap flow tabs .comment rest
      | _ =>
        if p.char = ' ' || (p.char = '\t' && tabs) then skipGap flow tabs .blank rest
        else
          match p.char, gap with
          | '#', .blank => skipGap flow tabs .comment rest
          | _, _ => p :: rest

/-- The next content after a token in a block. -/
def toBlock (s : Input) : Input := skipGap false true .touching s

/-- The next content after a token in a flow collection. -/
def toFlow (s : Input) : Input := skipGap true true .touching s

/-! ## Quoted scalars -/

/-- A gap of `breaks` line breaks inside a scalar: one is a blank, and of several the first goes. -/
def folded (breaks : Nat) : List Char :=
  if breaks = 1 then [' '] else List.replicate (breaks - 1) '\n'

/-- Blanks and line breaks inside quotes, as they count. -/
def foldGap (s : Input) : List Char × Input :=
  let gap := s.takeWhile fun p => isBlank p.char || p.char = '\n'
  let breaks := (gap.filter (·.char = '\n')).length
  (if breaks = 0 then gap.map (·.char) else folded breaks, s.drop gap.length)

/-- The rest of a scalar in single quotes, in which a quote is written twice. -/
def singleQuoted : Nat → Input → Option (List Char × Input)
  | 0, _ => none
  | _ + 1, [] => none
  | fuel + 1, p :: rest =>
    if p.char = '\x27' then
      if starts rest '\x27' then
        (singleQuoted fuel rest.tail).map fun (cs, s) => ('\x27' :: cs, s)
      else some ([], rest)
    else if isBlank p.char || p.char = '\n' then
      let (gap, s) := foldGap (p :: rest)
      (singleQuoted fuel s).map fun (cs, s) => (gap ++ cs, s)
    else (singleQuoted fuel rest).map fun (cs, s) => (p.char :: cs, s)

/-- The escapes that stand for one character. -/
def escapes : List (Char × Char) :=
  [('0', '\x00'), ('a', '\x07'), ('b', '\x08'), ('t', '\t'), ('\t', '\t'), ('n', '\n'),
    ('v', '\x0b'), ('f', '\x0c'), ('r', '\r'), ('e', '\x1b'), (' ', ' '), ('"', '"'), ('/', '/'),
    ('\\', '\\'), ('N', '\u0085'), ('_', '\u00a0'), ('L', '\u2028'), ('P', '\u2029')]

/-- How many hexadecimal digits an escape takes. -/
def hexWidth? : Char → Option Nat
  | 'x' => some 2
  | 'u' => some 4
  | 'U' => some 8
  | _ => none

def hexDigit? (c : Char) : Option Nat :=
  if c.isDigit then some (c.toNat - '0'.toNat)
  else if 'a' ≤ c && c ≤ 'f' then some (c.toNat - 'a'.toNat + 10)
  else if 'A' ≤ c && c ≤ 'F' then some (c.toNat - 'A'.toNat + 10)
  else none

/-- The character of hexadecimal digits. -/
def hexChar? (width : Nat) (s : Input) : Option Char := do
  let digits ← (s.take width).mapM fun p => hexDigit? p.char
  let n := digits.foldl (fun n d => n * 16 + d) 0
  if digits.length = width && n.isValidChar then some (Char.ofNat n) else none

/-- What follows a backslash. -/
def escape? (s : Input) : Option (List Char × Input) := do
  let p ← s.head?
  if p.char = '\n' then return ([], skipBlanks s.tail)
  match escapes.lookup p.char, hexWidth? p.char with
  | some c, _ => return ([c], s.tail)
  | none, some width => return ([← hexChar? width s.tail], s.tail.drop width)
  | none, none => none

/-- The rest of a scalar in double quotes. -/
def doubleQuoted : Nat → Input → Option (List Char × Input)
  | 0, _ => none
  | _ + 1, [] => none
  | fuel + 1, p :: rest =>
    if p.char = '"' then some ([], rest)
    else if p.char = '\\' then do
      let (c, s) ← escape? rest
      (doubleQuoted fuel s).map fun (cs, s) => (c ++ cs, s)
    else if isBlank p.char || p.char = '\n' then
      let (gap, s) := foldGap (p :: rest)
      (doubleQuoted fuel s).map fun (cs, s) => (gap ++ cs, s)
    else (doubleQuoted fuel rest).map fun (cs, s) => (p.char :: cs, s)

/-- A quoted scalar. -/
def quoted? (s : Input) : Option (String × Input) :=
  let found :=
    if starts s '"' then doubleQuoted s.length s.tail
    else if starts s '\x27' then singleQuoted s.length s.tail
    else none
  found.map fun (cs, s) => (String.ofList cs, s)

/-! ## Plain scalars -/

/-- Whether a plain scalar may start here. -/
def startsPlain (flow : Bool) (s : Input) : Bool :=
  s.head?.any fun p =>
    if ['-', '?', ':'].contains p.char then
      !atWordEnd s.tail && !(flow && s.tail.head?.any fun q => isFlow q.char)
    else !isBlank p.char && p.char ≠ '\n' && !isIndicator p.char

/-- The part of a plain scalar that stands on this line. -/
def plainLine (flow : Bool) : (apart : Bool) → Input → List Char × Input
  | _, [] => ([], [])
  | apart, p :: rest =>
    if p.char = '\n' || atColon flow (p :: rest) || (flow && isFlow p.char) ||
        (apart && p.char = '#') then ([], p :: rest)
    else
      let (cs, s) := plainLine flow (isBlank p.char) rest
      (p.char :: cs, s)

def trimEnd (cs : List Char) : List Char := (cs.reverse.dropWhile isBlank).reverse

/-- A plain scalar goes on in lines that are indented past `margin`. -/
def plainLines (flow : Bool) (margin : Nat) : Nat → Input → List Char × Input
  | 0, s => ([], s)
  | fuel + 1, s =>
    let (cs, after) := plainLine flow true s
    let gap := after.takeWhile fun p => isBlank p.char || p.char = '\n'
    let next := after.drop gap.length
    let breaks := (gap.filter (·.char = '\n')).length
    let goesOn := next.head?.any fun p =>
      (flow || margin ≤ p.column) && p.char ≠ '#' && !atMarker next '-' && !atMarker next '.'
    if 0 < breaks && goesOn && (plainLine flow true next).1 ≠ [] then
      let (more, rest) := plainLines flow margin fuel next
      (trimEnd cs ++ folded breaks ++ more, rest)
    else (trimEnd cs, after)

def plain? (flow : Bool) (margin : Nat) (s : Input) : Option (String × Input) :=
  if startsPlain flow s then
    let (cs, rest) := plainLines flow margin s.length s
    some (String.ofList cs, rest)
  else none

/-! ## Flow collections -/

/-- A scalar as a document. -/
def scalar? (flow : Bool) (margin : Nat) (s : Input) : Option (Document × Input) :=
  match quoted? s with
  | some (text, rest) => some (.text text, rest)
  | none => (plain? flow margin s).map fun (word, rest) => (.plain word, rest)

/-- The key of a pair in a flow collection. -/
def flowKey? (s : Input) : Option (String × Input) :=
  match quoted? s with
  | some found => some found
  | none => plain? true 0 s

mutual

/-- A value in a flow collection. -/
def flowNode? : Nat → Input → Option (Document × Input)
  | 0, _ => none
  | fuel + 1, s =>
    if starts s '[' then (flowItems? fuel (toFlow s.tail)).map fun (ds, r) => (.list ds, r)
    else if starts s '{' then (flowPairs? fuel (toFlow s.tail)).map fun (es, r) => (.object es, r)
    else scalar? true 0 s

/-- The items of a list, up to its end. -/
def flowItems? : Nat → Input → Option (List Document × Input)
  | 0, _ => none
  | fuel + 1, s =>
    if starts s ']' then some ([], s.tail)
    else do
      let (d, rest) ← flowNode? fuel s
      let rest := toFlow rest
      if starts rest ']' then return ([d], rest.tail)
      if !starts rest ',' then none
      let (ds, rest) ← flowItems? fuel (toFlow rest.tail)
      return (d :: ds, rest)

/-- The pairs of an object, up to its end. -/
def flowPairs? : Nat → Input → Option (List (String × Document) × Input)
  | 0, _ => none
  | fuel + 1, s =>
    if starts s '}' then some ([], s.tail)
    else do
      let isQuoted := (quoted? s).isSome
      let (key, rest) ← flowKey? s
      let rest := toFlow rest
      let (d, rest) ←
        if atColon true rest || (isQuoted && starts rest ':') then
          let value := toFlow rest.tail
          if starts value ',' || starts value '}' then some (.plain "", value)
          else flowNode? fuel value
        else some (.plain "", rest)
      let rest := toFlow rest
      if starts rest '}' then return ([(key, d)], rest.tail)
      if !starts rest ',' then none
      let (es, rest) ← flowPairs? fuel (toFlow rest.tail)
      return ((key, d) :: es, rest)

end

/-! ## Blocks -/

/-- The key of a pair in a block, which stands on one line and before a colon. -/
def blockKey? (s : Input) : Option (String × Input) := do
  let first ← s.head?
  let (key, rest) ←
    match quoted? s with
    | some found => some found
    | none =>
      if startsPlain false s then
        let (cs, rest) := plainLine false true s
        some (String.ofList (trimEnd cs), rest)
      else none
  let rest := skipBlanks rest
  if atColon false rest && rest.head?.any (·.line = first.line) then some (key, rest.tail)
  else none

/-- Whether the next content is on the line of the last. -/
def sameLine (before after : Input) : Bool :=
  match before.head?, after.head? with
  | some p, some q => p.line = q.line
  | _, _ => false

/-- The column of the next content. -/
def columnOf (s : Input) : Option Nat := s.head?.map (·.column)

mutual

/-- A value in a block whose lines are indented by at least `margin`. -/
def blockNode? : Nat → (margin : Nat) → Input → Option (Document × Input)
  | 0, _, _ => none
  | fuel + 1, margin, s => do
    let column ← columnOf s
    if startsWord s '-' then
      let (ds, rest) ← blockItems? fuel column s
      return (.list ds, rest)
    if (blockKey? s).isSome then
      let (es, rest) ← blockPairs? fuel column s
      return (.object es, rest)
    inlineNode? fuel margin s

/-- A value that stands on the line of its key. -/
def inlineNode? : Nat → (margin : Nat) → Input → Option (Document × Input)
  | 0, _, _ => none
  | fuel + 1, margin, s =>
    if starts s '[' || starts s '{' then flowNode? fuel s else scalar? false margin s

/-- The items of a block sequence in a column. -/
def blockItems? : Nat → (column : Nat) → Input → Option (List Document × Input)
  | 0, _, _ => none
  | fuel + 1, column, s => do
    let item := skipGap false false .blank s.tail
    let deeper := (columnOf item).any (column < ·)
    let (d, rest) ←
      if deeper then blockNode? fuel (column + 1) item else some (.plain "", item)
    let next := toBlock rest
    if columnOf next = some column && startsWord next '-' then
      let (ds, rest) ← blockItems? fuel column next
      return (d :: ds, rest)
    return ([d], next)

/-- The pairs of a block mapping in a column. -/
def blockPairs? : Nat → (column : Nat) → Input → Option (List (String × Document) × Input)
  | 0, _, _ => none
  | fuel + 1, column, s => do
    let (key, rest) ← blockKey? s
    let value := toBlock rest
    let (d, rest) ←
      if sameLine s value then inlineNode? fuel (column + 1) value
      else if (columnOf value).any (column < ·) then blockNode? fuel (column + 1) value
      else if columnOf value = some column && startsWord value '-' then
        (blockItems? fuel column value).map fun (ds, r) => (.list ds, r)
      else some (.plain "", value)
    let next := toBlock rest
    if columnOf next = some column && !atMarker next '-' && !atMarker next '.' &&
        (blockKey? next).isSome then
      let (es, rest) ← blockPairs? fuel column next
      return ((key, d) :: es, rest)
    return ([(key, d)], next)

end

/-! ## Documents -/

/-- What may follow a document: nothing, or the marker of its end and then nothing. -/
def atEnd (s : Input) : Bool :=
  s.isEmpty || (atMarker s '.' && (skipGap false false .blank (s.drop 3)).isEmpty)

/-- **Reading a text.** A text without content is a blank document. -/
def read? (text : String) : Option Document :=
  let s := skipGap false false .blank (place text)
  let s := if atMarker s '-' then toBlock (s.drop 3) else s
  if atEnd s then some (.plain "")
  else do
    let (d, rest) ← blockNode? (3 * s.length + 8) 0 s
    if atEnd (toBlock rest) then some d else none

end WalletLedger.Yaml
