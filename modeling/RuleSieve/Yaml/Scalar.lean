/-
  The scalars of YAML: plain, quoted, and in blocks.

  Line breaks inside a scalar are folded: a single one becomes a space, and of several the first one is
  dropped.  Every function here is given the text after the place where the scalar starts, and tells
  how far the scalar goes.
-/
import RuleSieve.Text.CodePoints

namespace RuleSieve.Yaml

/-! ## Characters -/

/-- Does the character end a line? -/
def isBreak (c : Char) : Bool := c == '\n' || c == '\u2028' || c == '\u2029'

/-- Does the character separate words on a line? -/
def isBlank (c : Char) : Bool := c == ' ' || c == '\t'

/-- Can the character stand between words? -/
def isGap (c : Char) : Bool := isBlank c || isBreak c

/-- Does a word end before this text? -/
def endsWord : List Char → Bool
  | [] => true
  | c :: _ => isGap c

/-- The marks of lists and tables that are written between brackets. -/
def isFlowMark (c : Char) : Bool := [',', '[', ']', '\x7b', '\x7d'].contains c

/-- Does the text, at the start of a line, begin with a mark that separates documents? -/
def beginsDocumentMark : List Char → Bool
  | '-' :: '-' :: '-' :: rest => endsWord rest
  | '.' :: '.' :: '.' :: rest => endsWord rest
  | _ => false

/-- The text that line breaks, the first of them first, leave behind. -/
def foldBreaks : List Char → List Char
  | '\n' :: [] => [' ']
  | '\n' :: more => more
  | breaks => breaks

/-- The text that a gap between two words leaves behind. -/
def foldGap (gap : List Char) : List Char :=
  let breaks := gap.filter isBreak
  if breaks.isEmpty then gap else foldBreaks breaks

/-! ## Plain scalars -/

/-- Where a plain scalar stands. -/
structure PlainPlace where
  /-- Is it inside brackets? -/
  inFlow : Bool
  /-- The column that its lines have to reach. -/
  indent : Int

/-- Does a plain scalar end before a character that is not in a gap, given the gap before it? -/
def PlainPlace.endsBefore (place : PlainPlace) (gap : List Char) (column : Nat) (text : List Char) :
    Bool :=
  match text with
  | [] => true
  | c :: cs =>
    (!gap.isEmpty &&
      (c == '#' || (column == 0 && beginsDocumentMark text) ||
        (!place.inFlow && (column : Int) < place.indent))) ||
    (c == ':' && endsWord cs) || (place.inFlow && isFlowMark c)

/-- A plain scalar, the text after it, and the gap that was passed at its end.  `gap` is what was passed
    since the last word, and `column` is where the text starts. -/
def plainFrom? (place : PlainPlace) (gap : List Char) (column : Nat) :
    List Char → Option (List Char × List Char × List Char)
  | [] => some ([], [], gap)
  | c :: cs =>
    if isGap c then
      if c = '\t' && gap.any isBreak && (column : Int) < place.indent then none
      else plainFrom? place (gap ++ [c]) (if isBreak c then 0 else column + 1) cs
    else if place.endsBefore gap column (c :: cs) then some ([], c :: cs, gap)
    else if place.inFlow && c = ':' && cs.head?.any (fun d => isFlowMark d || d == '?') then none
    else
      (plainFrom? place [] (column + 1) cs).map fun (value, rest) =>
        (foldGap gap ++ c :: value, rest)

/-! ## Quoted scalars -/

/-- What a character after a backslash stands for. -/
def unescape? : Char → Option Char
  | '0' => some '\x00'
  | 'a' => some '\x07'
  | 'b' => some '\x08'
  | 't' | '\t' => some '\t'
  | 'n' => some '\n'
  | 'v' => some '\x0b'
  | 'f' => some '\x0c'
  | 'r' => some '\r'
  | 'e' => some '\x1b'
  | ' ' => some ' '
  | '"' => some '"'
  | '/' => some '/'
  | '\\' => some '\\'
  | 'N' => some '\x85'
  | '_' => some '\xa0'
  | 'L' => some '\u2028'
  | 'P' => some '\u2029'
  | _ => none

/-- The number of hexadecimal digits after a letter that announces a code point. -/
def codePointDigits? : Char → Option Nat
  | 'x' => some 2
  | 'u' => some 4
  | 'U' => some 8
  | _ => none

/-- The character of a code point, if there is one. -/
def charOf? (n : Nat) : Option Char := if n.isValidChar then some (Char.ofNat n) else none

/-- The character that is written after a backslash, and how many characters that takes. -/
def readEscape? : List Char → Option (Char × Nat)
  | [] => none
  | c :: cs =>
    match codePointDigits? c with
    | none => (unescape? c).map fun written => (written, 1)
    | some count =>
      let digits := cs.take count
      if digits.length = count && digits.all (fun d => (Text.hexDigit? d).isSome) then
        (charOf? (Text.hexNumber digits)).map fun written => (written, count + 1)
      else none

/-- A gap inside quotes. -/
structure QuotedGap where
  chars : List Char
  /-- Did a backslash stand before the first line break, so that it counts for nothing? -/
  joined : Bool

/-- The text that a gap inside quotes leaves behind. -/
def QuotedGap.fold (gap : QuotedGap) : List Char :=
  if gap.joined then (gap.chars.filter isBreak).drop 1 else foldGap gap.chars

/-- No gap. -/
def QuotedGap.none : QuotedGap := ⟨[], false⟩

/-- A scalar in single quotes after its opening quote, and the text after its closing quote. -/
def singleQuotedFrom? (gap : QuotedGap) (skip : Nat) :
    List Char → Option (List Char × List Char)
  | [] => Option.none
  | c :: cs =>
    if skip ≠ 0 then singleQuotedFrom? gap (skip - 1) cs
    else if isGap c then singleQuotedFrom? ⟨gap.chars ++ [c], false⟩ 0 cs
    else if gap.chars.getLast?.any isBreak && beginsDocumentMark (c :: cs) then Option.none
    else if c = '\'' && cs.head? != some '\'' then some (gap.fold, cs)
    else
      (singleQuotedFrom? .none (if c = '\'' then 1 else 0) cs).map fun (value, rest) =>
        (gap.fold ++ c :: value, rest)

/-- A scalar in double quotes after its opening quote, and the text after its closing quote. -/
def doubleQuotedFrom? (gap : QuotedGap) (skip : Nat) :
    List Char → Option (List Char × List Char)
  | [] => Option.none
  | c :: cs =>
    if skip ≠ 0 then doubleQuotedFrom? gap (skip - 1) cs
    else if isGap c then doubleQuotedFrom? { gap with chars := gap.chars ++ [c] } 0 cs
    else if gap.chars.getLast?.any isBreak && beginsDocumentMark (c :: cs) then Option.none
    else if c = '"' then some (gap.fold, cs)
    else if c = '\\' then
      if cs.head?.any isBreak then
        (doubleQuotedFrom? ⟨[], true⟩ 0 cs).map fun (value, rest) => (gap.fold ++ value, rest)
      else
        (readEscape? cs).bind fun (written, count) =>
          (doubleQuotedFrom? .none count cs).map fun (value, rest) =>
            (gap.fold ++ written :: value, rest)
    else
      (doubleQuotedFrom? .none 0 cs).map fun (value, rest) => (gap.fold ++ c :: value, rest)

/-! ## Block scalars -/

/-- What happens to the line breaks at the end of a block. -/
inductive Chomping where
  | strip
  | clip
  | keep
  deriving Repr, DecidableEq

/-- The marks after the sign of a block: chomping, and by how much the lines are indented. -/
structure BlockHeader where
  chomping : Chomping
  increment : Option Nat

/-- The chomping of a mark. -/
def chomping? : Char → Option Chomping
  | '-' => some .strip
  | '+' => some .keep
  | _ => none

/-- The increment that a digit writes. -/
def increment? (c : Char) : Option Nat :=
  if '1' ≤ c && c ≤ '9' then some (c.toNat - '0'.toNat) else none

/-- The marks that a text begins with, in either order, and the rest. -/
def readHeader (text : List Char) : BlockHeader × List Char :=
  match text with
  | [] => (⟨.clip, none⟩, [])
  | c :: cs =>
    match chomping? c, increment? c with
    | some chomping, _ =>
      match cs.head?.bind increment? with
      | some n => (⟨chomping, some n⟩, cs.drop 1)
      | none => (⟨chomping, none⟩, cs)
    | none, some n =>
      match cs.head?.bind chomping? with
      | some chomping => (⟨chomping, some n⟩, cs.drop 1)
      | none => (⟨.clip, some n⟩, cs)
    | none, none => (⟨.clip, none⟩, text)

/-- A line and the break at its end, if it has one. -/
structure Line where
  content : List Char
  ending : List Char

/-- The lines of a text. -/
def lines : List Char → List Line
  | [] => [⟨[], []⟩]
  | c :: cs =>
    if isBreak c then ⟨[], [c]⟩ :: lines cs
    else
      match lines cs with
      | [] => [⟨[c], []⟩]
      | line :: more => ⟨c :: line.content, line.ending⟩ :: more

/-- The number of spaces that a line begins with. -/
def Line.spaces (line : Line) : Nat := (line.content.takeWhile (· == ' ')).length

/-- The number of characters of a line. -/
def Line.length (line : Line) : Nat := line.content.length + line.ending.length

/-- The column of a block: that of its first line with something on it, or of a longer blank line
    before; none if a tab stands in the way. -/
def blockColumn? (least : Nat) : List Line → Option Nat
  | [] => some least
  | line :: more =>
    let reached := max least line.spaces
    match line.content.drop line.spaces with
    | [] => if line.ending.isEmpty then some reached else blockColumn? reached more
    | c :: _ => if c = '\t' then none else some reached

/-- What a line is to a block whose lines start at a column. -/
inductive BlockLine where
  /-- A line of the block. -/
  | inside (content : List Char)
  /-- A line with no more than the indentation on it. -/
  | blank
  /-- The block has ended. -/
  | outside
  /-- A tab stands in the indentation. -/
  | tab

/-- Places a line. -/
def Line.place (column : Nat) (line : Line) : BlockLine :=
  let indentation := min line.spaces column
  match line.content.drop indentation with
  | [] => if line.ending.isEmpty then .outside else .blank
  | c :: cs =>
    if indentation = column then .inside (c :: cs)
    else if c = '\t' then .tab
    else .outside

/-- What is read of a block: its text, the breaks after it (that of its last line and those of blank
    lines), and how many characters it takes. -/
structure Block where
  text : List Char
  lastBreak : List Char
  blankBreaks : List Char
  length : Nat

/-- The text between two lines of a block, of which the first one has the break `ending` and blank
    lines follow.  Lines that begin with a blank are not folded. -/
def joinLines (folded afterBlank beforeBlank : Bool) (ending blanks : List Char) : List Char :=
  if folded && ending == ['\n'] && !afterBlank && !beforeBlank then
    if blanks.isEmpty then [' '] else blanks
  else ending ++ blanks

/-- Reads the lines of a block.  `ending` is the break of the line before, `blanks` are those of the
    blank lines since, and `afterBlank` says whether the line before begins with a blank. -/
def blockFrom? (folded : Bool) (column : Nat) (ending blanks : List Char) (afterBlank : Bool) :
    List Line → Option Block
  | [] => some ⟨[], ending, blanks, 0⟩
  | line :: more =>
    match line.place column with
    | .tab => none
    | .outside => some ⟨[], ending, blanks, min line.spaces column⟩
    | .blank =>
      (blockFrom? folded column ending (blanks ++ line.ending) afterBlank more).map fun block =>
        { block with length := block.length + line.length }
    | .inside content =>
      let beforeBlank := content.head?.any isBlank
      (blockFrom? folded column line.ending [] beforeBlank more).map fun block =>
        { block with
          text := joinLines folded afterBlank beforeBlank ending blanks ++ content ++ block.text
          length := block.length + line.length }

/-- The breaks that stay at the end of a block. -/
def Chomping.tail (chomping : Chomping) (block : Block) : List Char :=
  match chomping with
  | .strip => []
  | .clip => block.lastBreak
  | .keep => block.lastBreak ++ block.blankBreaks

/-- A block scalar after its sign, and how many characters it takes.  `parent` is the column of what it
    stands in. -/
def readBlock? (folded : Bool) (parent : Int) (text : List Char) : Option (List Char × Nat) := do
  let (header, rest) := readHeader text
  let rest := rest.dropWhile isBlank
  let rest := if rest.head? = some '#' then rest.dropWhile (!isBreak ·) else rest
  let body ← match rest with
    | [] => some []
    | c :: cs => if isBreak c then some cs else none
  let column ← match header.increment with
    | some n => some ((max parent 0).toNat + n)
    | none => blockColumn? (max 1 (parent + 1)).toNat (lines body)
  let block ← blockFrom? folded column [] [] false (lines body)
  return (block.text ++ header.chomping.tail block, text.length - body.length + block.length)

end RuleSieve.Yaml
