/-
# `Python.Grammar` — from tokens to syntax trees

`parse` reads a whole source.  A rule says how one category of the grammar is read, given readers for
all of them; `reader` closes the circle.  Every round through it takes at least one token, so the
number of tokens bounds the rounds.

The grammar is that of the language, with two liberties.  Keywords are names where no keyword may
stand, and the statements `print 'x'` and `exec 'x'` are read.  Where a line's indentation does not fit, it is
read into the innermost block that it is not indented less than; `Indentation` refuses such sources.
-/
import Consolidation.Python.Parsing
import Consolidation.Python.Lexer

namespace Consolidation.Python

namespace Grammar

open Python.Parser

/-- The categories through which the grammar refers to itself. -/
inductive Category where
  | expression
  | disjunction
  | inversion
  | factor
  | pattern
  /-- A hole in a formatted string. -/
  | hole
  /-- A statement with blocks of its own, in a block of some indentation. -/
  | compound (indent : Nat)
  /-- What stands behind the colon of a header in a block of some indentation. -/
  | suite (indent : Nat)

variable (self : Category → Parser Tree)

/-- Takes a name. -/
def name : Parser Tree := do
  let start ← here
  token .name
  finishNode start .identifier []

/-- May a token start an expression? -/
def startsExpression (t : Token) : Bool :=
  match t.kind with
  | .name => true
  | .number => true
  | .string => true
  | .formatOpen => true
  | .sign => ["(", "[", "\x7b", "+", "-", "~", "*", "..."].contains t.text
  | _ => false

/-! ## Lists of expressions -/

/-- An expression or a star with one. -/
def element : Parser Tree := do
  let start ← here
  if ← sign? "*" then
    let inner ← self .disjunction
    finishNode start .listSplat [inner]
  else self .expression

/-- One or more expressions with commas between them, and whether there is a comma. -/
def elements : Parser (List Tree × Bool) := do
  let first ← element self
  if ← sign? "," then
    let rest ← commaList (fun t => !startsExpression t) (element self) (← bound)
    pure (first :: rest, true)
  else pure ([first], false)

/-- One expression, or a tuple without brackets. -/
def expressions : Parser Tree := do
  let start ← here
  match ← elements self with
  | ([single], false) => pure single
  | (many, _) => finishNode start .tuple many

/-- What a generator yields. -/
def yielding : Parser Tree := do
  let start ← here
  word "yield"
  if ← word? "from" then
    let inner ← self .expression
    finishNode start .expression [inner]
  else if startsExpression (← peek) then
    let inner ← expressions self
    finishNode start .expression [inner]
  else finishNode start .expression []

/-- What may stand on the right of an assignment. -/
def value : Parser Tree := do
  if (← peek).isWord "yield" then yielding self else expressions self

/-! ## Strings -/

/-- A hole in a formatted string: an expression, perhaps shown with its source, converted and
formatted. -/
def hole : Parser Tree := do
  let start ← here
  token .holeOpen
  let inner ← value self
  let _ ← sign? "="
  let t ← peek
  if t.kind == .conversion then
    if t.text.length == 2 && t.text.toList.all (fun c => c == '!' || ('a' ≤ c && c ≤ 'z')) then advance
    else fail
  let format ←
    if ← sign? ":" then repeatWhile (·.kind == .holeOpen) (self .hole) (← bound) else pure []
  token .holeClose
  finishNode start .expression (inner :: format)

def isString (t : Token) : Bool := t.kind == .string || t.kind == .formatOpen

def stringLiteral : Parser Tree := do
  let start ← here
  if (← peek).kind == .string then
    advance
    finishNode start .string []
  else
    token .formatOpen
    let holes ← repeatWhile (·.kind == .holeOpen) (self .hole) (← bound)
    token .formatClose
    finishNode start .string holes

/-- String literals side by side. -/
def strings : Parser Tree := do
  let start ← here
  let first ← stringLiteral self
  let rest ← repeatWhile isString (stringLiteral self) (← bound)
  if rest.isEmpty then pure first else finishNode start .concatenatedString (first :: rest)

/-! ## Targets -/

mutual

/-- Can an expression be assigned to? -/
def isTarget : Tree → Bool
  | .node kind _ children =>
    match kind with
    | .identifier => true
    | .member => true
    | .subscript => true
    | .tuple => areTargets children
    | .list => areTargets children
    | .listSplat => areTargets children
    | .parenthesized => areTargets children
    | _ => false

/-- Can all of some expressions be assigned to? -/
def areTargets : List Tree → Bool
  | [] => true
  | t :: rest => isTarget t && areTargets rest

end

/-- Can an expression be the target of an annotation or of an assignment with an operator? -/
def isSingleTarget (t : Tree) : Bool :=
  match t.kind with
  | .identifier => true
  | .member => true
  | .subscript => true
  | .parenthesized => isTarget t
  | _ => false

/-! ## Brackets -/

/-- Does a comprehension start here? -/
def startsComprehension (t : Token) : Bool := t.isWord "for" || t.isWord "async"

/-- A target, or a star with one, read with `operand`. -/
def starredTarget (operand : Parser Tree) : Parser Tree := do
  let start ← here
  if ← sign? "*" then
    let inner ← operand
    finishNode start .listSplat [inner]
  else operand

/-- The targets of a loop, read with `operand`, up to the word `in`. -/
def loopTargets (operand : Parser Tree) : Parser (List Tree) := do
  let targets ← commaList (·.isWord "in") (starredTarget operand) (← bound)
  if targets.isEmpty || !areTargets targets then fail
  word "in"
  pure targets

def comprehensionLoop (operand : Parser Tree) : Parser Tree := do
  let start ← here
  let _ ← word? "async"
  word "for"
  let targets ← loopTargets operand
  let source ← self .disjunction
  finishNode start .expression (targets ++ [source])

def comprehensionClause (operand : Parser Tree) : Parser Tree := do
  let start ← here
  if ← word? "if" then
    let condition ← self .disjunction
    finishNode start .expression [condition]
  else comprehensionLoop self operand

/-- The clauses of a comprehension. -/
def comprehension (operand : Parser Tree) : Parser (List Tree) := do
  let first ← comprehensionLoop self operand
  let rest ← repeatWhile (fun t => startsComprehension t || t.isWord "if")
    (comprehensionClause self operand) (← bound)
  pure (first :: rest)

/-- What round brackets hold: nothing, a generator, a tuple or a single expression. -/
def roundBrackets (operand : Parser Tree) : Parser Tree := do
  let start ← here
  sign "("
  if ← sign? ")" then finishNode start .tuple []
  else if (← peek).isWord "yield" then
    let inner ← yielding self
    sign ")"
    finishNode start .parenthesized [inner]
  else
    let first ← element self
    if startsComprehension (← peek) then
      let clauses ← comprehension self operand
      sign ")"
      finishNode start .expression (first :: clauses)
    else if ← sign? "," then
      let rest ← commaList (·.isSign ")") (element self) (← bound)
      sign ")"
      finishNode start .tuple (first :: rest)
    else
      sign ")"
      finishNode start .parenthesized [first]

/-- What square brackets hold: a list or a comprehension. -/
def squareBrackets (operand : Parser Tree) : Parser Tree := do
  let start ← here
  sign "["
  if ← sign? "]" then finishNode start .list []
  else
    let first ← element self
    if startsComprehension (← peek) then
      let clauses ← comprehension self operand
      sign "]"
      finishNode start .expression (first :: clauses)
    else
      let rest ←
        if ← sign? "," then commaList (·.isSign "]") (element self) (← bound) else pure []
      sign "]"
      finishNode start .list (first :: rest)

/-- What curly brackets hold one of, and whether it belongs into a dictionary. -/
def entry : Parser (Tree × Bool) := do
  let start ← here
  if ← sign? "**" then
    let inner ← self .disjunction
    pure (← finishNode start .dictionarySplat [inner], true)
  else
    let key ← element self
    if ← sign? ":" then
      let bound ← self .expression
      pure (← finishNode start .expression [key, bound], true)
    else pure (key, false)

/-- What curly brackets hold: a dictionary, a set or a comprehension. -/
def curlyBrackets (operand : Parser Tree) : Parser Tree := do
  let start ← here
  sign "\x7b"
  if ← sign? "\x7d" then finishNode start .expression []
  else
    let first ← entry self
    if startsComprehension (← peek) then
      let clauses ← comprehension self operand
      sign "\x7d"
      finishNode start .expression (first.1 :: clauses)
    else
      let rest ←
        if ← sign? "," then commaList (·.isSign "\x7d") (entry self) (← bound) else pure []
      if !rest.all (fun e => e.2 == first.2) then fail
      sign "\x7d"
      finishNode start .expression (first.1 :: rest.map Prod.fst)

/-! ## Operands -/

/-- An argument of a call. -/
def argument : Parser Tree := do
  let start ← here
  if ← sign? "*" then
    let inner ← self .expression
    finishNode start .listSplat [inner]
  else if ← sign? "**" then
    let inner ← self .expression
    finishNode start .dictionarySplat [inner]
  else if (← peek).kind == .name && (← peekSecond).isSign "=" then
    let keyword ← name
    advance
    let inner ← self .expression
    finishNode start .expression [keyword, inner]
  else self .expression

/-- The arguments of a call or the bases of a class, with their brackets. -/
def arguments (operand : Parser Tree) : Parser Tree := do
  let start ← here
  sign "("
  if ← sign? ")" then finishNode start .expression []
  else
    let first ← argument self
    if startsComprehension (← peek) then
      let clauses ← comprehension self operand
      sign ")"
      finishNode start .expression (first :: clauses)
    else
      let rest ←
        if ← sign? "," then commaList (·.isSign ")") (argument self) (← bound) else pure []
      sign ")"
      finishNode start .expression (first :: rest)

/-- One bound of a slice, which may be left out. -/
def sliceBound : Parser (List Tree) := do
  let t ← peek
  if t.isSign ":" || t.isSign "," || t.isSign "]" then pure []
  else pure [← self .expression]

/-- An index or a slice. -/
def index : Parser Tree := do
  let start ← here
  if (← peek).isSign "*" then element self
  else
    let lower ← sliceBound self
    if ← sign? ":" then
      let upper ← sliceBound self
      let step ← if ← sign? ":" then sliceBound self else pure []
      finishNode start .expression (lower ++ upper ++ step)
    else match lower with
      | [single] => pure single
      | _ => fail

/-- Extends an operand by what may stand behind it, if that is there. -/
def trailer (operand : Parser Tree) (t : Tree) : Parser (Option Tree) := do
  let front ← peek
  if front.isSign "." then
    advance
    let named ← name
    some <$> finishNode t.extent.start .member [t, named]
  else if front.isSign "(" then
    let given ← arguments self operand
    some <$> finishNode t.extent.start .call [t, given]
  else if front.isSign "[" then
    advance
    let indices ← commaList (·.isSign "]") (index self) (← bound)
    if indices.isEmpty then fail
    sign "]"
    some <$> finishNode t.extent.start .subscript (t :: indices)
  else pure none

/-- Words that never stand for a value. -/
def isOperatorWord (t : Token) : Bool := ["not", "lambda", "yield"].contains t.text

/-- Words for constants, which cannot be assigned to. -/
def isConstantWord (t : Token) : Bool := ["None", "True", "False"].contains t.text

/-- An operand without anything behind it. -/
def atom (operand : Parser Tree) : Parser Tree := do
  let t ← peek
  match t.kind with
  | .name =>
    if isOperatorWord t then fail
    else
      advance
      finishNode t.start (if isConstantWord t then .expression else .identifier) []
  | .number =>
    advance
    finishNode t.start .expression []
  | .string => strings self
  | .formatOpen => strings self
  | .sign =>
    if t.text == "(" then roundBrackets self operand
    else if t.text == "[" then squareBrackets self operand
    else if t.text == "\x7b" then curlyBrackets self operand
    else if t.text == "..." then
      advance
      finishNode t.start .expression []
    else fail
  | _ => fail

/-- The operand of an operator that binds most tightly.  The targets of the comprehensions in it
are operands again, with a round less to go. -/
def operand : Nat → Parser Tree
  | 0 => fail
  | fuel + 1 => do
    let first ← atom self (operand fuel)
    extendWhile (trailer self (operand fuel)) (← bound) first

/-! ## Operators -/

/-- Operands joined by operators of one level, from the left. -/
def leftChain (isOperator : Token → Bool) (kind : NodeKind) (operand : Parser Tree) : Parser Tree := do
  let first ← operand
  extendWhile (fun left => do
    if isOperator (← peek) then
      advance
      let right ← operand
      some <$> finishNode left.extent.start kind [left, right]
    else pure none) (← bound) first

def awaited : Parser Tree := do
  let start ← here
  let plain : Parser Tree := do operand self (← bound)
  if (← peek).isWord "await" then
    orElse (do
      advance
      let inner ← plain
      finishNode start .expression [inner]) plain
  else plain

def factor : Parser Tree := do
  let start ← here
  let t ← peek
  if t.isSign "+" || t.isSign "-" || t.isSign "~" then
    advance
    let inner ← self .factor
    finishNode start .expression [inner]
  else
    let base ← awaited self
    if ← sign? "**" then
      let exponent ← self .factor
      finishNode start .expression [base, exponent]
    else pure base

/-- The levels of the arithmetic operators, from the one that binds most tightly. -/
def arithmeticLevels : List (List String) :=
  [["*", "/", "//", "%", "@"], ["+", "-"], ["<<", ">>"], ["&"], ["^"], ["|"]]

def arithmetic : Parser Tree :=
  arithmeticLevels.foldl
    (fun inner signs => leftChain (fun t => t.kind == .sign && signs.contains t.text) .expression inner)
    (factor self)

/-- Takes a comparison operator, if one is at the front. -/
def comparisonOperator? : Parser Bool := do
  let t ← peek
  if t.kind == .sign && ["<", ">", "<=", ">=", "==", "!=", "<>"].contains t.text then
    advance
    pure true
  else if t.isWord "in" then
    advance
    pure true
  else if t.isWord "not" && (← peekSecond).isWord "in" then
    advance
    advance
    pure true
  else if t.isWord "is" then
    advance
    let _ ← word? "not"
    pure true
  else pure false

def comparison : Parser Tree := do
  let first ← arithmetic self
  extendWhile (fun left => do
    if ← comparisonOperator? then
      let right ← arithmetic self
      some <$> finishNode left.extent.start .expression [left, right]
    else pure none) (← bound) first

def inversion : Parser Tree := do
  let start ← here
  if ← word? "not" then
    let inner ← self .inversion
    finishNode start .expression [inner]
  else comparison self

def disjunction : Parser Tree :=
  leftChain (·.isWord "or") (.booleanOperator .or)
    (leftChain (·.isWord "and") (.booleanOperator .and) (inversion self))

/-! ## Parameters -/

/-- What stands behind the name of a parameter: an annotation if `typed` is set, and a default
if `optional` is. -/
def annotated (typed optional : Bool) (start : Place) (named : Tree) : Parser Tree := do
  let t ← peek
  let annotation ←
    if typed && t.isSign ":" then
      advance
      pure [← element self]
    else pure []
  let t ← peek
  let preset ←
    if optional && t.isSign "=" then
      advance
      pure [← self .expression]
    else pure []
  match annotation, preset with
  | [], [] => pure named
  | [a], [] => finishNode start .typedParameter [named, a]
  | [], [d] => finishNode start .defaultParameter [named, d]
  | a, d => finishNode start .typedDefaultParameter (named :: a ++ d)

/-- One parameter, with an annotation only if `typed` is set. -/
def parameter (typed : Bool) : Parser Tree := do
  let start ← here
  let t ← peek
  if t.isSign "*" then
    advance
    if (← peek).kind == .name then
      let named ← finishNode start .listSplat [← name]
      annotated self typed false start named
    else finishNode start .separator []
  else if t.isSign "**" then
    advance
    let named ← finishNode start .dictionarySplat [← name]
    annotated self typed false start named
  else if t.isSign "/" then
    advance
    finishNode start .separator []
  else if t.isSign "(" then
    let targets ← operand self (← bound)
    if isTarget targets then annotated self false true start targets else fail
  else
    let named ← name
    annotated self typed true start named

/-- The parameters of a definition, with their brackets. -/
def parameters : Parser Tree := do
  let start ← here
  sign "("
  let items ← commaList (·.isSign ")") (parameter self true) (← bound)
  sign ")"
  finishNode start .parameters items

/-- One type parameter: a name, perhaps starred, with a bound and a default. -/
def typeParameter : Parser Tree := do
  let start ← here
  if !(← sign? "*") then
    let _ ← sign? "**"
  let named ← name
  let limit ← if ← sign? ":" then pure [← self .expression] else pure []
  let preset ← if ← sign? "=" then pure [← element self] else pure []
  finishNode start .expression (named :: limit ++ preset)

/-- The type parameters of a definition, if there are any. -/
def typeParameters : Parser (List Tree) := do
  let start ← here
  if ← sign? "[" then
    let items ← commaList (·.isSign "]") (typeParameter self) (← bound)
    if items.isEmpty then fail
    sign "]"
    pure [← finishNode start .expression items]
  else pure []

/-! ## Expressions -/

def lambda : Parser Tree := do
  let start ← here
  word "lambda"
  let items ← commaList (·.isSign ":") (parameter self false) (← bound)
  sign ":"
  let body ← self .expression
  finishNode start .expression (items ++ [body])

/-- An expression that may be conditional. -/
def conditional : Parser Tree := do
  let start ← here
  let first ← disjunction self
  if ← word? "if" then
    let condition ← disjunction self
    word "else"
    let other ← self .expression
    finishNode start .expression [first, condition, other]
  else pure first

/-- An expression; where a value is bound to a name by `as`, the name belongs to it. -/
def expression : Parser Tree := do
  let start ← here
  let t ← peek
  if t.isWord "lambda" then lambda self
  else if t.kind == .name && (← peekSecond).isSign ":=" then
    let named ← name
    advance
    let inner ← self .expression
    finishNode start .expression [named, inner]
  else
    let first ← conditional self
    if ← word? "as" then
      let target ← operand self (← bound)
      finishNode start .expression [first, target]
    else pure first

/-! ## Patterns -/

/-- A name with dots. -/
def dottedName : Parser Tree := do
  let start ← here
  let first ← name
  let rest ← repeatWhile (·.isSign ".") (do
    advance
    name) (← bound)
  if rest.isEmpty then pure first else finishNode start .expression (first :: rest)

/-- Patterns up to a closing bracket, which is taken too. -/
def bracketedPatterns (close : String) (item : Parser Tree) : Parser (List Tree) := do
  let items ← commaList (·.isSign close) item (← bound)
  sign close
  pure items

/-- A pattern in the brackets of a class, perhaps for a named attribute. -/
def attributePattern : Parser Tree := do
  if (← peek).kind == .name && (← peekSecond).isSign "=" then
    advance
    advance
  self .pattern

/-- A pattern in the brackets of a mapping. -/
def mappingPattern : Parser Tree := do
  let start ← here
  if ← sign? "**" then name
  else
    let key ← self .pattern
    sign ":"
    let bound ← self .pattern
    finishNode start .expression [key, bound]

/-- A number in a pattern: a sign and an imaginary part may belong to it. -/
def numberPattern : Parser Tree := do
  let start ← here
  let _ ← sign? "-"
  token .number
  let t ← peek
  if t.isSign "+" || t.isSign "-" then
    advance
    token .number
  finishNode start .expression []

/-- A pattern without alternatives. -/
def closedPattern : Parser Tree := do
  let start ← here
  let t ← peek
  match t.kind with
  | .name =>
    let named ← dottedName
    if ← sign? "(" then
      let items ← bracketedPatterns ")" (attributePattern self)
      finishNode start .expression (named :: items)
    else pure named
  | .number => numberPattern
  | .string => strings self
  | .formatOpen => strings self
  | .sign =>
    if t.text == "-" then numberPattern
    else
      advance
      let items ←
        if t.text == "(" then bracketedPatterns ")" (self .pattern)
        else if t.text == "[" then bracketedPatterns "]" (self .pattern)
        else if t.text == "\x7b" then bracketedPatterns "\x7d" (mappingPattern self)
        else if t.text == "*" then pure [← name]
        else fail
      finishNode start .expression items
  | _ => fail

/-- A pattern: alternatives, and perhaps a name for what they match. -/
def pattern : Parser Tree := do
  let start ← here
  let first ← leftChain (·.isSign "|") .expression (closedPattern self)
  if ← word? "as" then
    let named ← name
    finishNode start .expression [first, named]
  else pure first

/-! ## Statements of one line -/

/-- Fails unless a statement ends here. -/
def statementEnd : Parser Unit := do
  if (← peek).isSign ";" then pure ()
  else if ← atLineEnd then pure ()
  else fail

/-- Signs of assignments with an operator. -/
def assignmentOperators : List String :=
  ["+=", "-=", "*=", "/=", "//=", "%=", "@=", "&=", "|=", "^=", ">>=", "<<=", "**="]

/-- What follows the sign of an assignment: further targets and the value. -/
def assigned : Nat → Parser (List Tree)
  | 0 => fail
  | fuel + 1 => do
    let inner ← value self
    if (← peek).isSign "=" then
      if !isTarget inner then fail
      advance
      let rest ← assigned fuel
      pure (inner :: rest)
    else pure [inner]

/-- Expressions, or an assignment. -/
def expressionStatement : Parser Tree := do
  let start ← here
  if (← peek).isWord "yield" then
    let inner ← yielding self
    finishNode start .expressionStatement [inner]
  else
    let (items, comma) ← elements self
    let t ← peek
    let single := !comma && items.all isSingleTarget
    if t.isSign "=" then
      if !areTargets items then fail
      advance
      let rest ← assigned self (← bound)
      let assignment ← finishNode start .expression (items ++ rest)
      finishNode start .expressionStatement [assignment]
    else if t.isSign ":" && single then
      advance
      let annotation ← self .expression
      let preset ← if ← sign? "=" then pure [← value self] else pure []
      let assignment ← finishNode start .expression (items ++ annotation :: preset)
      finishNode start .expressionStatement [assignment]
    else if t.kind == .sign && assignmentOperators.contains t.text && single then
      advance
      let inner ← value self
      let assignment ← finishNode start .expression (items ++ [inner])
      finishNode start .expressionStatement [assignment]
    else finishNode start .expressionStatement items

/-- A dotted name, perhaps under another name. -/
def aliasedName : Parser Tree := do
  let start ← here
  let full ← dottedName
  if ← word? "as" then
    let short ← name
    finishNode start .expression [full, short]
  else pure full

/-- Names with commas between them. -/
def nameList (item : Parser Tree) : Parser (List Tree) := do
  let first ← item
  let rest ← repeatWhile (·.isSign ",") (do
    advance
    item) (← bound)
  pure (first :: rest)

/-- What follows the word `from` at the start of a statement. -/
def importFrom : Parser (List Tree) := do
  let dots ← repeatWhile (fun t => t.isSign "." || t.isSign "...") advance (← bound)
  if dots.isEmpty || !(← peek).isWord "import" then
    let _ ← dottedName
  word "import"
  if ← sign? "*" then pure []
  else if ← sign? "(" then
    let items ← commaList (·.isSign ")") aliasedName (← bound)
    if items.isEmpty then fail
    sign ")"
    pure items
  else nameList aliasedName

/-- What follows the word `raise`. -/
def raised : Parser (List Tree) := do
  if startsExpression (← peek) then
    let error ← expressions self
    if ← word? "from" then pure [error, ← self .expression] else pure [error]
  else pure []

/-- A name given to a type. -/
def typeAlias : Parser Tree := do
  let start ← here
  word "type"
  let named ← name
  let typeNames ← typeParameters self
  sign "="
  let inner ← self .expression
  finishNode start .simpleStatement (named :: typeNames ++ [inner])

/-- The statement that prints, from before it was a function. -/
def printing : Parser Tree := do
  let start ← here
  word "print"
  let (items, _) ← elements self
  finishNode start .simpleStatement items

/-- The statement that runs a text, from before it was a function. -/
def executing : Parser Tree := do
  let start ← here
  word "exec"
  let code ← if isString (← peek) then strings self else name
  let spaces ← if ← word? "in" then nameList (self .expression) else pure []
  finishNode start .simpleStatement (code :: spaces)

/-- A statement without blocks. -/
def simpleStatement : Parser Tree := do
  let start ← here
  let t ← peek
  let finished (children : List Tree) : Parser Tree := finishNode start .simpleStatement children
  let plain : Parser Tree := do
    let statement ← expressionStatement self
    statementEnd
    pure statement
  if t.kind != .name then plain
  else if ["pass", "break", "continue"].contains t.text then
    advance
    finished []
  else if t.text == "return" then
    advance
    finished (← if startsExpression (← peek) then pure [← expressions self] else pure [])
  else if t.text == "raise" then
    advance
    finished (← raised self)
  else if t.text == "del" then
    advance
    let (items, _) ← elements self
    if areTargets items then finished items else fail
  else if t.text == "assert" then
    advance
    finished (← nameList (self .expression))
  else if t.text == "global" || t.text == "nonlocal" then
    advance
    finished (← nameList name)
  else if t.text == "import" then
    advance
    finished (← nameList aliasedName)
  else if t.text == "from" then
    advance
    finished (← importFrom)
  else if t.text == "type" then orElse (typeAlias self) plain
  else if t.text == "print" then orElse plain (printing self)
  else if t.text == "exec" then orElse plain (executing self)
  else plain

/-- The statements of one line, and the line's end. -/
def simpleLine : Nat → Parser (List Tree)
  | 0 => fail
  | fuel + 1 => do
    let first ← simpleStatement self
    if ← sign? ";" then
      if ← atLineEnd then
        lineEnd
        pure [first]
      else
        let rest ← simpleLine fuel
        pure (first :: rest)
    else
      lineEnd
      pure [first]

/-! ## Blocks -/

/-- Words that start a statement with blocks. -/
def compoundWords : List String := ["if", "for", "while", "try", "with", "def", "class"]

/-- Does a statement with blocks start here? -/
def startsCompound (t second : Token) : Bool :=
  t.isSign "@" || (t.kind == .name && compoundWords.contains t.text) ||
    (t.isWord "async" && ["def", "for", "with"].any second.isWord)

/-- The statements of one line, or one statement with blocks. -/
def statementLine (indent : Nat) : Parser (List Tree) := do
  let t ← peek
  let plain : Parser (List Tree) := do simpleLine self (← bound)
  let nested : Parser (List Tree) := do pure [← self (.compound indent)]
  if startsCompound t (← peekSecond) then nested
  else if t.isWord "match" then orElse nested plain
  else plain

/-- Lines read with `line` as long as they are not indented less than the block.  The comments behind
the last one that are not indented less belong to the block. -/
def blockOf (line : Parser (List Tree)) (indent : Nat) : Nat → Parser (List Tree)
  | 0 => fail
  | fuel + 1 => do
    if (← peek).kind == .finish || (← Parser.indent) < indent then
      takeComments indent
      pure []
    else
      takeComments 0
      let first ← line
      let rest ← blockOf line indent fuel
      pure (first ++ rest)

/-- The lines of a block that a line end has announced, if they are indented more than the header. -/
def innerBlock (line : Nat → Parser (List Tree)) (indent : Nat) : Parser (List Tree) := do
  let inner ← Parser.indent
  if indent < inner then blockOf (line inner) inner (← bound) else pure []

/-- What stands behind the colon of a header: statements on its line, or a block. -/
def suite (indent : Nat) : Parser Tree := do
  let start ← here
  if ← atLineEnd then
    lineEnd
    finishNode start .block (← innerBlock (statementLine self) indent)
  else finishNode start .block (← simpleLine self (← bound))

/-! ## Statements with blocks -/

/-- The colon of a header and the statements behind it. -/
def body (indent : Nat) : Parser Tree := do
  sign ":"
  self (.suite indent)

/-- Does a clause with this word follow in a block of this indentation? -/
def clauseFollows (indent : Nat) (text : String) : Parser Bool := do
  pure ((← peek).isWord text && indent ≤ (← Parser.indent))

/-- The clauses with this word that follow. -/
def clauses (indent : Nat) (text : String) (item : Parser Tree) : Parser (List Tree) := do
  repeatWhen (clauseFollows indent text) item (← bound)

/-- The clause with this word and nothing but its block, if it follows. -/
def clause? (indent : Nat) (text : String) (kind : NodeKind) : Parser (List Tree) := do
  if ← clauseFollows indent text then
    let start ← here
    advance
    let inner ← body self indent
    pure [← finishNode start kind [inner]]
  else pure []

def elifClause (indent : Nat) : Parser Tree := do
  let start ← here
  word "elif"
  let condition ← self .expression
  let inner ← body self indent
  finishNode start .elifClause [condition, inner]

def ifStatement (indent : Nat) : Parser Tree := do
  let start ← here
  word "if"
  let condition ← self .expression
  let inner ← body self indent
  let others ← clauses indent "elif" (elifClause self indent)
  let last ← clause? self indent "else" .elseClause
  finishNode start .ifStatement (condition :: inner :: others ++ last)

def whileStatement (indent : Nat) : Parser Tree := do
  let start ← here
  word "while"
  let condition ← self .expression
  let inner ← body self indent
  let last ← clause? self indent "else" .elseClause
  finishNode start .whileStatement (condition :: inner :: last)

def forStatement (indent : Nat) : Parser Tree := do
  let start ← here
  let _ ← word? "async"
  word "for"
  let targets ← loopTargets (do operand self (← bound))
  let source ← expressions self
  let inner ← body self indent
  let last ← clause? self indent "else" .elseClause
  finishNode start .forStatement (targets ++ source :: inner :: last)

def withStatement (indent : Nat) : Parser Tree := do
  let start ← here
  let _ ← word? "async"
  word "with"
  let (items, _) ← elements self
  let inner ← body self indent
  finishNode start .withStatement (items ++ [inner])

def exceptClause (indent : Nat) : Parser Tree := do
  let start ← here
  word "except"
  let _ ← sign? "*"
  let caught ←
    if (← peek).isSign ":" then pure []
    else
      let kinds ← self .expression
      if ← sign? "," then pure [kinds, ← self .expression] else pure [kinds]
  let inner ← body self indent
  finishNode start .exceptClause (caught ++ [inner])

def tryStatement (indent : Nat) : Parser Tree := do
  let start ← here
  word "try"
  let inner ← body self indent
  let handlers ← clauses indent "except" (exceptClause self indent)
  let other ← if handlers.isEmpty then pure [] else clause? self indent "else" .elseClause
  let last ← clause? self indent "finally" .finallyClause
  if handlers.isEmpty && last.isEmpty then fail
  finishNode start .tryStatement (inner :: handlers ++ other ++ last)

def functionDefinition (indent : Nat) : Parser Tree := do
  let start ← here
  let _ ← word? "async"
  word "def"
  let named ← name
  let typeNames ← typeParameters self
  let items ← parameters self
  let result ← if ← sign? "->" then pure [← self .expression] else pure []
  let inner ← body self indent
  finishNode start .functionDefinition (named :: typeNames ++ items :: result ++ [inner])

def classDefinition (indent : Nat) : Parser Tree := do
  let start ← here
  word "class"
  let named ← name
  let typeNames ← typeParameters self
  let bases ←
    if (← peek).isSign "(" then pure [← arguments self (do operand self (← bound))] else pure []
  let inner ← body self indent
  finishNode start .classDefinition (named :: typeNames ++ bases ++ [inner])

def definition (indent : Nat) : Parser Tree := do
  if (← peek).isWord "class" then classDefinition self indent else functionDefinition self indent

def decorator : Parser Tree := do
  let start ← here
  sign "@"
  let inner ← self .expression
  lineEnd
  finishNode start .expression [inner]

def decoratedDefinition (indent : Nat) : Parser Tree := do
  let start ← here
  let decorators ← repeatWhile (·.isSign "@") (decorator self) (← bound)
  let inner ← definition self indent
  finishNode start .decoratedDefinition (decorators ++ [inner])

def caseClause (indent : Nat) : Parser Tree := do
  let start ← here
  word "case"
  let stops (t : Token) : Bool := t.isSign ":" || t.isWord "if"
  let patterns ← commaList stops (self .pattern) (← bound)
  if patterns.isEmpty then fail
  let guarding ← if ← word? "if" then pure [← self .expression] else pure []
  let inner ← body self indent
  finishNode start .caseClause (patterns ++ guarding ++ [inner])

def matchStatement (indent : Nat) : Parser Tree := do
  let start ← here
  word "match"
  let (subjects, _) ← elements self
  sign ":"
  lineEnd
  let line (inner : Nat) : Parser (List Tree) := do pure [← caseClause self inner]
  let cases ← innerBlock line indent
  finishNode start .matchStatement (subjects ++ cases)

def compound (indent : Nat) : Parser Tree := do
  let t ← peek
  let second ← peekSecond
  let verb := if t.isWord "async" then second.text else t.text
  if t.isSign "@" then decoratedDefinition self indent
  else if verb == "if" then ifStatement self indent
  else if verb == "for" then forStatement self indent
  else if verb == "while" then whileStatement self indent
  else if verb == "try" then tryStatement self indent
  else if verb == "with" then withStatement self indent
  else if verb == "match" then matchStatement self indent
  else definition self indent

/-! ## The whole grammar -/

/-- How a category is read, given readers for all of them. -/
def rule : Category → Parser Tree
  | .expression => expression self
  | .disjunction => disjunction self
  | .inversion => inversion self
  | .factor => factor self
  | .pattern => pattern self
  | .hole => hole self
  | .compound indent => compound self indent
  | .suite indent => suite self indent

/-- Reads a category in so many rounds. -/
def reader : Nat → Category → Parser Tree
  | 0, _ => fail
  | rounds + 1, category => rule (reader rounds) category

/-- Reads a whole source. -/
def module (rounds : Nat) : Parser Tree := do
  let start ← here
  let statements ← blockOf (statementLine (reader rounds) 0) 0 (← bound)
  if (← peek).kind == .finish then finishNode start .module statements else fail

end Grammar

/-- The syntax tree of a source, or the place where it stops making sense. -/
def parse (source : List Char) : Except Place Tree :=
  let found := tokens source
  match Grammar.module (4 * found.length + 16) ⟨found, .start, [], 0⟩ with
  | .ok (tree, _) => .ok tree
  | .error place => .error place

end Consolidation.Python
