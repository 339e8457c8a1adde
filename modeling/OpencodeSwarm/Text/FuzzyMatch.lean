/-
  OpencodeSwarm.Text.FuzzyMatch

  The chain of matching strategies behind fuzzy patches (`src/utils/fuzzy-match.ts`):
  each finds character spans of the content, the first that finds any is settled by
  the guards, and its spans are replaced from the last to the first.
-/
import OpencodeSwarm.Lib.Json
import OpencodeSwarm.Text.UnicodePreserved

namespace OpencodeSwarm

open Js

/-! ## Lines and blanks -/

def lineFeedUnit : CodeUnit := 0x0A

/-- `text.split('\n')`. -/
def linesOf (text : JsString) : List JsString := text.splitOn lineFeedUnit

/-- `lines.join('\n')`. -/
def joinLines (lines : List JsString) : JsString := [lineFeedUnit].intercalate lines

/-- `[ \t]`. -/
def isInlineBlank (c : CodeUnit) : Bool := c == 0x20 || c == 0x09

def leadingWhitespace (line : JsString) : JsString := line.takeWhile isInlineBlank

/-- `line.replace(/^[ \t]+/, '')`. -/
def stripLeading (line : JsString) : JsString := line.dropWhile isInlineBlank

def firstMeaningfulLine (text : JsString) : Option JsString :=
  (linesOf text).find? fun line => !isBlank line

/-- `text.split(c + d).join(repl)` for two different code units. -/
def replacePair (c d repl : CodeUnit) : JsString → JsString
  | a :: b :: rest =>
    if a = c ∧ b = d then repl :: replacePair c d repl rest
    else a :: replacePair c d repl (b :: rest)
  | short => short

/-! ## Guards and the shape of the replacement -/

def driftMessage (suspect plain : JsString) : JsString :=
  js "Escape-drift detected: old_string and new_string contain the literal sequence "
    ++ quote suspect
    ++ js " but the matched region of the file does not. This is almost "
    ++ js "always a tool-call serialization artifact where an apostrophe or quote got prefixed "
    ++ js "with a spurious backslash. Re-read the file with read_file and pass "
    ++ js "old_string/new_string without backslash-escaping " ++ quote plain ++ js " characters."

/-- The two sequences, each with the character it escapes. -/
def driftSuspects : List (JsString × JsString) := [(js "\\'", js "'"), (js "\\\"", js "\"")]

def detectEscapeDrift (content : JsString) (matches' : List Span) (oldString newString : JsString) :
    Option JsString :=
  if !includes newString (js "\\'") && !includes newString (js "\\\"") then none
  else (driftSuspects.find? fun entry => includes newString entry.1 && includes oldString entry.1
      && !includes (regionOf content matches') entry.1).map fun entry =>
    driftMessage entry.1 entry.2

def maybeUnescapeNewString (newString content : JsString) (matches' : List Span) : JsString :=
  if !includes newString (js "\\t") && !includes newString (js "\\r") then newString
  else
    let matchedRegions := regionOf content matches'
    let tabbed := if includes newString (js "\\t") && includes matchedRegions [0x09] then
      replacePair 0x5C 0x74 0x09 newString else newString
    if includes tabbed (js "\\r") && includes matchedRegions [0x0D] then
      replacePair 0x5C 0x72 0x0D tabbed else tabbed

/-- One line of the new string, from the pattern's base indentation to the file's. -/
def reindentLine (oldIndent fileIndent line : JsString) : JsString :=
  if isBlank line then line
  else if oldIndent.isPrefixOf (leadingWhitespace line) then
    fileIndent ++ line.drop oldIndent.length
  else fileIndent ++ stripLeading line

def reindentReplacement (fileRegion oldString newString : JsString) : JsString :=
  if newString = [] then newString
  else match firstMeaningfulLine oldString, firstMeaningfulLine fileRegion with
    | some oldFirst, some fileFirst =>
      let oldIndent := leadingWhitespace oldFirst
      let fileIndent := leadingWhitespace fileFirst
      if oldIndent = fileIndent then newString
      else joinLines ((linesOf newString).map (reindentLine oldIndent fileIndent))
    | _, _ => newString

/-- What a span is replaced with; `oldString` is there for all strategies but the exact one. -/
def adjustedReplacement (content newString : JsString) (oldString : Option JsString) (span : Span) :
    JsString :=
  match oldString with
  | some old => reindentReplacement (sliceOf content span.1 span.2) old newString
  | none => newString

/-- `(x, y) => y[0] - x[0]`. -/
def compareStarts (x y : Span) : Int := (y.1 : Int) - x.1

/-- `applyReplacements`: from the last span to the first. -/
def applyReplacements (content : JsString) (matches' : List Span) (newString : JsString)
    (oldString : Option JsString) : JsString :=
  (sortBy compareStarts matches').foldl (fun result span =>
    result.take span.1 ++ adjustedReplacement content newString oldString span
      ++ result.drop span.2) content

/-! ## Positions -/

/-- `mapPositionsNormToOrig`: a match that begins inside a character is left out. -/
def mapPositionsNormToOrig (origToNorm : List Nat) (normMatches : List Span) : List Span :=
  let origLen := origToNorm.length - 1
  normMatches.filterMap fun span =>
    (OrderedMap.get? (normToOrig origToNorm) span.1).map fun origStart =>
      (origStart, advanceEnd origToNorm origLen span.2 (origLen - origStart) origStart)

/-- Where a line begins: the lines before it, each with its line feed. -/
def lineStart (contentLines : List JsString) (line : Nat) : Nat :=
  ((contentLines.take line).map fun text => text.length + 1).sum

def calculateLinePositions (contentLines : List JsString) (startLine endLine contentLength : Nat) :
    Span :=
  (lineStart contentLines startLine, min contentLength (lineStart contentLines endLine - 1))

/-- The windows of `count` out of `total` lines that are accepted, as spans: the loop that the
    strategies by lines share. -/
def windowSpans (total : Nat) (contentLines : List JsString) (count contentLength : Nat)
    (accepts : Nat → Bool) : List Span :=
  ((List.range (total + 1 - count)).filter accepts).map fun i =>
    calculateLinePositions contentLines i (i + count) contentLength

/-- `lines.slice(i, i + count)`. -/
def windowAt (lines : List JsString) (i count : Nat) : List JsString := (lines.drop i).take count

/-- A window of normalized lines is the pattern. -/
def blockMatches (contentNormalizedLines : List JsString) (patternNormalized : JsString) (i : Nat) :
    Bool :=
  joinLines (windowAt contentNormalizedLines i (linesOf patternNormalized).length)
    = patternNormalized

def findNormalizedMatches (content : JsString) (contentLines contentNormalizedLines : List JsString)
    (patternNormalized : JsString) : List Span :=
  windowSpans contentNormalizedLines.length contentLines (linesOf patternNormalized).length
    content.length (blockMatches contentNormalizedLines patternNormalized)

/-- The first loop of `mapNormalizedPositions`, over what is left of both texts. -/
def blankWalk (normalizedLength : Nat) : JsString → JsString → Nat → List Nat
  | [], _, _ => []
  | _ :: rest, [], normIdx => normalizedLength :: blankWalk normalizedLength rest [] normIdx
  | c :: rest, n :: others, normIdx =>
    if c = n then normIdx :: blankWalk normalizedLength rest others (normIdx + 1)
    else if isInlineBlank c = true ∧ n = 0x20 then
      if rest.head?.any (fun next => !isInlineBlank next) then
        normIdx :: blankWalk normalizedLength rest others (normIdx + 1)
      else normIdx :: blankWalk normalizedLength rest (n :: others) normIdx
    -- extra whitespace, and the mismatch that does not happen
    else normIdx :: blankWalk normalizedLength rest (n :: others) normIdx

/-- Keys with the last index where they stand. -/
def lastIndices (keys : List Nat) : OrderedMap Nat Nat :=
  keys.zipIdx.foldl (fun map entry => OrderedMap.set map entry.1 entry.2) []

/-- `while (blank(original[end])) end++`, with the steps that are left. -/
def skipBlanks (original : JsString) : Nat → Nat → Nat
  | 0, last => last
  | left + 1, last =>
    if (original[last]?.any isInlineBlank) = true then skipBlanks original left (last + 1) else last

/-- The span in the original text of one match in the normalized text. -/
def mapNormalizedSpan (original normalized : JsString) (origToNorm : List Nat) (span : Span) :
    Span :=
  let origStart := (OrderedMap.get? (firstIndices origToNorm) span.1).getD
    (origToNorm.findIdx fun position => span.1 ≤ position)
  let matchEnd := match OrderedMap.get? (lastIndices origToNorm) (span.2 - 1) with
    | some position => position + 1
    | none => origStart + (span.2 - span.1)
  let origEnd := if span.2 < normalized.length ∧ normalized[span.2 - 1]? = some 0x20 then
    skipBlanks original (original.length - matchEnd) matchEnd else matchEnd
  (origStart, min origEnd original.length)

def mapNormalizedPositions (original normalized : JsString) (normalizedMatches : List Span) :
    List Span :=
  normalizedMatches.map
    (mapNormalizedSpan original normalized (blankWalk normalized.length original normalized 0))

/-! ## Strategies -/

/-- `content.indexOf(pattern)`. -/
def indexOf (pattern : JsString) : JsString → Option Nat
  | [] => if pattern = [] then some 0 else none
  | c :: rest =>
    if pattern.isPrefixOf (c :: rest) then some 0 else (indexOf pattern rest).map (· + 1)

/-- The loop of `strategyExact` with the rounds that are left.  It does not end for an empty
    pattern. -/
def exactFrom (content pattern : JsString) : Nat → Nat → Option (List Span)
  | 0, _ => none
  | rounds + 1, start =>
    match indexOf pattern (content.drop start) with
    | none => some []
    | some found =>
      let pos := start + found
      (exactFrom content pattern rounds (pos + pattern.length)).map
        ((pos, pos + pattern.length) :: ·)

/-- Strategy 1. -/
def strategyExact (content pattern : JsString) : Option (List Span) :=
  exactFrom content pattern (content.length + 1) 0

/-- Strategy 2. -/
def strategyLineTrimmed (content pattern : JsString) : List Span :=
  findNormalizedMatches content (linesOf content) ((linesOf content).map trim)
    (joinLines ((linesOf pattern).map trim))

/-- `s.replace(/[ \t]+/g, ' ')`, where a run of blanks is or is not under way. -/
def collapseFrom : Bool → JsString → JsString
  | _, [] => []
  | inRun, c :: rest =>
    if isInlineBlank c then
      if inRun then collapseFrom true rest else 0x20 :: collapseFrom true rest
    else c :: collapseFrom false rest

def collapseBlanks (s : JsString) : JsString := collapseFrom false s

/-- Strategy 3. -/
def strategyWhitespaceNormalized (content pattern : JsString) : Option (List Span) :=
  (strategyExact (collapseBlanks content) (collapseBlanks pattern)).map
    (mapNormalizedPositions content (collapseBlanks content))

/-- Strategy 4. -/
def strategyIndentationFlexible (content pattern : JsString) : List Span :=
  findNormalizedMatches content (linesOf content) ((linesOf content).map stripLeading)
    (joinLines ((linesOf pattern).map stripLeading))

def unescapeLiterals (s : JsString) : JsString :=
  replacePair 0x5C 0x72 0x0D (replacePair 0x5C 0x74 0x09 (replacePair 0x5C 0x6E 0x0A s))

/-- Strategy 5. -/
def strategyEscapeNormalized (content pattern : JsString) : Option (List Span) :=
  if unescapeLiterals pattern = pattern then some []
  else strategyExact content (unescapeLiterals pattern)

/-- The first line and, if there are more, the last one trimmed. -/
def trimEnds : List JsString → List JsString
  | [] => []
  | first :: rest => trim first :: (rest.dropLast ++ rest.getLast?.toList.map trim)

/-- A window with its ends trimmed is the pattern with its ends trimmed. -/
def boundaryMatches (contentLines patternLines : List JsString) (i : Nat) : Bool :=
  joinLines (trimEnds (windowAt contentLines i patternLines.length)) = joinLines patternLines

/-- Strategy 6. -/
def strategyTrimmedBoundary (content pattern : JsString) : List Span :=
  let patternLines := trimEnds (linesOf pattern)
  let contentLines := linesOf content
  windowSpans contentLines.length contentLines patternLines.length content.length
    (boundaryMatches contentLines patternLines)

/-- Strategy 7. -/
def strategyUnicodeNormalized (content pattern : JsString) : Option (List Span) :=
  let normPattern := unicodeNormalize pattern
  let normContent := unicodeNormalize content
  if normContent = content ∧ normPattern = pattern then some []
  else (strategyExact normContent normPattern).map fun exactMatches =>
    let normMatches := if exactMatches = [] then strategyLineTrimmed normContent normPattern
      else exactMatches
    mapPositionsNormToOrig (buildOrigToNormMap content) normMatches

/-- The first and the last line of a window are the pattern's. -/
def anchorsAt (normContentLines patternLines : List JsString) (i : Nat) : Bool :=
  decide (normContentLines[i]?.map trim = patternLines.head?.map trim)
    && decide (normContentLines[i + patternLines.length - 1]?.map trim
      = patternLines.getLast?.map trim)

/-- How similar the lines between the anchors are. -/
def middleSimilarity (normContentLines patternLines : List JsString) (i : Nat) : Rat :=
  if patternLines.length ≤ 2 then 1
  else ratio none true (joinLines (windowAt normContentLines (i + 1) (patternLines.length - 2)))
    (joinLines (windowAt patternLines 1 (patternLines.length - 2)))

/-- The threshold is lower for a single candidate. -/
def anchorThreshold (normContentLines patternLines : List JsString) : Rat :=
  let potentialMatches := (List.range (normContentLines.length + 1 - patternLines.length)).filter
    (anchorsAt normContentLines patternLines)
  if potentialMatches.length = 1 then 1 / 2 else 7 / 10

/-- A window between the anchors that is similar enough. -/
def anchorMatches (normContentLines patternLines : List JsString) (i : Nat) : Bool :=
  anchorsAt normContentLines patternLines i
    && decide (anchorThreshold normContentLines patternLines
      ≤ middleSimilarity normContentLines patternLines i)

/-- Strategy 8. -/
def strategyBlockAnchor (content pattern : JsString) : List Span :=
  let patternLines := linesOf (unicodeNormalize pattern)
  let normContentLines := linesOf (unicodeNormalize content)
  if patternLines.length < 2 then []
  else windowSpans normContentLines.length (linesOf content) patternLines.length content.length
    (anchorMatches normContentLines patternLines)

def contextAwareMaxCells : Nat := 200000

/-- How many lines of a block are similar to those of the pattern. -/
def highSimilarityCount (patternLines blockLines : List JsString) : Nat :=
  ((patternLines.zip blockLines).filter fun pair =>
    decide ((4 / 5 : Rat) ≤ ratio none true (trim pair.1) (trim pair.2))).length

/-- A window of which half the lines are similar. -/
def contextMatches (contentLines patternLines : List JsString) (i : Nat) : Bool :=
  patternLines.length
    ≤ 2 * highSimilarityCount patternLines (windowAt contentLines i patternLines.length)

/-- Strategy 9. -/
def strategyContextAware (content pattern : JsString) : List Span :=
  let patternLines := linesOf pattern
  let contentLines := linesOf content
  if contextAwareMaxCells < contentLines.length * patternLines.length then []
  else windowSpans contentLines.length contentLines patternLines.length content.length
    (contextMatches contentLines patternLines)

/-! ## The chain -/

inductive FuzzyStrategy
  | exact
  | lineTrimmed
  | whitespaceNormalized
  | indentationFlexible
  | escapeNormalized
  | trimmedBoundary
  | unicodeNormalized
  | blockAnchor
  | contextAware
  deriving DecidableEq, Repr

namespace FuzzyStrategy

/-- The spans that a strategy finds. -/
def find (content pattern : JsString) : FuzzyStrategy → Option (List Span)
  | exact => strategyExact content pattern
  | lineTrimmed => some (strategyLineTrimmed content pattern)
  | whitespaceNormalized => strategyWhitespaceNormalized content pattern
  | indentationFlexible => some (strategyIndentationFlexible content pattern)
  | escapeNormalized => strategyEscapeNormalized content pattern
  | trimmedBoundary => some (strategyTrimmedBoundary content pattern)
  | unicodeNormalized => strategyUnicodeNormalized content pattern
  | blockAnchor => some (strategyBlockAnchor content pattern)
  | contextAware => some (strategyContextAware content pattern)

/-- The strategies that normalize typographic characters. -/
def preservesUnicode (strategy : FuzzyStrategy) : Bool :=
  strategy = unicodeNormalized || strategy = blockAnchor || strategy = contextAware

/-- The old string that re-indentation goes by. -/
def reindentsFrom (strategy : FuzzyStrategy) (oldString : JsString) : Option JsString :=
  if strategy = exact then none else some oldString

end FuzzyStrategy

/-- The strategies in the order in which they are tried. -/
def fuzzyStrategies (includeContextAware : Bool) : List FuzzyStrategy :=
  [.exact, .lineTrimmed, .whitespaceNormalized, .indentationFlexible, .escapeNormalized,
    .trimmedBoundary, .unicodeNormalized, .blockAnchor]
    ++ if includeContextAware then [.contextAware] else []

structure FuzzyResult where
  content : JsString
  matchCount : Nat
  strategy : Option FuzzyStrategy
  error : Option JsString
  deriving DecidableEq, Repr

/-- A result that changes nothing. -/
def fuzzyFailure (content error : JsString) : FuzzyResult := ⟨content, 0, none, some error⟩

def ambiguityMessage (count : Nat) : JsString :=
  js "Found " ++ decimal count ++ js " matches for old_string. Provide more context to make it "
    ++ js "unique, or use replace_all=true."

/-- The new string after unescaping and the preservation of typographic characters. -/
def effectiveNewString (content oldString newString : JsString) (strategy : FuzzyStrategy)
    (matches' : List Span) : JsString :=
  let unescaped := maybeUnescapeNewString newString content matches'
  if strategy.preservesUnicode then
    preserveUnicodeInReplacement content matches' oldString unescaped
  else unescaped

/-- What is done with the matches of the first strategy that has any. -/
def settleMatches (content oldString newString : JsString) (replaceAll : Bool)
    (strategy : FuzzyStrategy) (matches' : List Span) : FuzzyResult :=
  if 1 < matches'.length ∧ replaceAll = false then
    fuzzyFailure content (ambiguityMessage matches'.length)
  else
    match if strategy = .exact then none
      else detectEscapeDrift content matches' oldString newString with
    | some driftErr => fuzzyFailure content driftErr
    | none =>
      ⟨applyReplacements content matches'
          (effectiveNewString content oldString newString strategy matches')
          (strategy.reindentsFrom oldString),
        matches'.length, some strategy, none⟩

/-- The loop over the strategies. -/
def tryStrategies (content oldString newString : JsString) (replaceAll : Bool) :
    List FuzzyStrategy → Option FuzzyResult
  | [] => some (fuzzyFailure content (js "Could not find a match for old_string in the file"))
  | strategy :: rest =>
    (strategy.find content oldString).bind fun matches' =>
      if matches' = [] then tryStrategies content oldString newString replaceAll rest
      else some (settleMatches content oldString newString replaceAll strategy matches')

/-- `fuzzyFindAndReplace`; `none` where it does not end. -/
def fuzzyFindAndReplace (content oldString newString : JsString) (replaceAll : Bool)
    (includeContextAware : Bool) : Option FuzzyResult :=
  if oldString = [] then some (fuzzyFailure content (js "old_string cannot be empty"))
  else if oldString = newString then
    some (fuzzyFailure content (js "old_string and new_string are identical"))
  else tryStrategies content oldString newString replaceAll (fuzzyStrategies includeContextAware)

end OpencodeSwarm
