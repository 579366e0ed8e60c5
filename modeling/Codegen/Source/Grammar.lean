import Codegen.Source.Pattern

/-!
The grammar of source modules, and the texts that have its form. Whether names are bound and statements
stand where they mean something is not asked.
-/
namespace Codegen.Source

inductive Rule where
  | atom
  | trailer
  | arguments
  | target
  | single
  | deleted
  | expression
  | disjunction
  | inversion
  | bitwise
  | unary
  | starred
  | named
  | field
  | comprehension
  | suspension
  | lambdaParams
  | params
  | pattern
  | simple
  | block
  | statement
  deriving DecidableEq, Repr, Inhabited

namespace Grammar

open Pattern

abbrev Form := Pattern Rule

def expr : Form := rule .expression
def named : Form := rule .named
def block : Form := seq (mark ":") (rule .block)
def dotted : Form := separated (mark ".") name
def value : Form := alt (rule .suspension) (listed (rule .starred))

def words (ss : List String) : Form := oneOf (ss.map word)
def marks (ss : List String) : Form := oneOf (ss.map mark)
def enclosed (opening closing : String) (p : Form) : Form := all [mark opening, p, mark closing]
def after (start : String) (p : Form) : Form := seq (word start) p
def preceded (start : String) (p : Form) : Form := seq (mark start) p

/-! Expressions -/

def unpacked : Form := preceded "*" (rule .bitwise)
def assigned : Form := all [name, mark ":=", expr]
def member : Form := alt unpacked named
def members : Form := optional (preceded "," (optional (listed member)))

def items (sole : Form) : Form :=
  alt (all [unpacked, sole, members]) (all [named, alt (rule .comprehension) members])

def parenthesized : Form :=
  enclosed "(" ")" (optional (alt (rule .suspension) (items (ahead (mark ",")))))

def listDisplay : Form :=
  enclosed "[" "]" (optional (items empty))

def braces : Form :=
  let opened := preceded "**" (rule .bitwise)
  let others := listed (alt opened (all [expr, mark ":", expr]))
  let pairs := optional (preceded "," (optional others))
  let set := alt (rule .comprehension) members
  let dict := preceded ":" (seq expr (alt (rule .comprehension) pairs))
  enclosed "\x7b" "\x7d"
    (optional
      (oneOf [seq opened pairs, seq unpacked members, seq assigned set, seq expr (alt dict set)]))

def template : Form :=
  all [token .template, many (rule .field), token .templateEnd]

def field : Form :=
  let conversion := preceded "!" (words ["s", "r", "a"])
  let format := preceded ":" (many (alt (rule .field) (token .text)))
  enclosed "\x7b" "\x7d" (all [value, optional (mark "="), optional conversion, optional format])

def literals : Form :=
  alt (repeated (token (.literal true))) (repeated (alt (token (.literal false)) template))

def numeral : Form :=
  alt (token (.number false)) (token (.number true))

def atom : Form :=
  oneOf
    [name, words ["True", "False", "None"], numeral, literals, mark "...", parenthesized, listDisplay,
      braces]

def slice : Form :=
  let bounds := all [mark ":", optional expr, optional (preceded ":" (optional expr))]
  oneOf [preceded "*" expr, bounds, assigned, seq expr (optional bounds)]

def subscript : Form :=
  enclosed "[" "]" (listed slice)

def attribute_ : Form :=
  preceded "." name

def trailer : Form :=
  oneOf [attribute_, enclosed "(" ")" (rule .arguments), subscript]

def keyword : Form :=
  all [name, mark "=", expr]

def arguments : Form :=
  let keywordOrStar := alt keyword (preceded "*" expr)
  let keywordOrStars := alt keyword (preceded "**" expr)
  let byName := oneOf
    [all [separated (mark ",") keywordOrStar, many (preceded "," keywordOrStars)],
      separated (mark ",") keywordOrStars]
  let positional := seq (without (seq name (mark "="))) (alt (preceded "*" expr) named)
  let others := all [many (preceded "," positional), optional (preceded "," byName), optional (mark ",")]
  let ordered := alt (all [preceded "*" expr, others]) (all [named, alt (rule .comprehension) others])
  optional
    (alt (seq (without (seq name (mark "="))) (seq (without (mark "**")) ordered))
      (seq byName (optional (mark ","))))

def primary : Form :=
  seq (rule .atom) (many (rule .trailer))

def binary : Form :=
  marks ["**", "//", ">>", "<<", "+", "-", "*", "/", "%", "@", "&", "|", "^"]

def comparison : Form :=
  oneOf
    [marks ["==", "!=", "<=", ">=", "<", ">"], word "in", after "not" (word "in"),
      after "is" (optional (word "not"))]

def params (closing : String) (param unpacked : Form) : Form :=
  let ending := alt (mark ",") (ahead (mark closing))
  let plain := all [param, without (mark "="), ending]
  let given := all [param, mark "=", expr, ending]
  let either := all [param, optional (preceded "=" expr), ending]
  let slash := seq (mark "/") ending
  let stars := all [mark "**", param, ending]
  let byName := oneOf
    [all [mark "*", unpacked, ending, many either, optional stars],
      all [mark "*", mark ",", repeated either, optional stars], stars]
  let defaults := optional (seq (repeated given) (optional (seq slash (many given))))
  let byPosition := alt
    (seq (repeated plain) (alt (all [slash, many plain, many given]) defaults)) defaults
  seq byPosition (optional byName)

/-! Patterns of cases -/

def captured : Form := seq (without (word "_")) name
def starPattern : Form := alt (preceded "*" name) (rule .pattern)

def signed : Form :=
  let complex := seq (marks ["+", "-"]) (token (.number true))
  seq (optional (mark "-")) (alt (token (.number true)) (seq (token (.number false)) (optional complex)))

def literalPattern : Form :=
  oneOf [signed, literals, words ["True", "False", "None"]]

def otherPatterns : Form := preceded "," (optional (listed starPattern))

def grouped : Form :=
  let starred := all [ahead (mark "*"), starPattern, otherPatterns]
  enclosed "(" ")" (optional (alt starred (seq (rule .pattern) (optional otherPatterns))))

def mappingPattern : Form :=
  let key := alt literalPattern (all [name, mark ".", dotted])
  let entry := all [key, mark ":", rule .pattern]
  let rest := seq (preceded "**" captured) (optional (mark ","))
  let entries := seq (separated (mark ",") entry) (optional (preceded "," (optional rest)))
  enclosed "\x7b" "\x7d" (optional (alt rest entries))

def classPattern : Form :=
  let byName := all [name, mark "=", rule .pattern]
  let byPlace := seq (without (seq name (mark "="))) (rule .pattern)
  let named := listed byName
  let placed := seq (separated (mark ",") byPlace) (optional (preceded "," (optional named)))
  seq dotted (enclosed "(" ")" (optional (alt placed named)))

def casePattern : Form :=
  let closed := oneOf
    [literalPattern, classPattern, dotted, grouped, enclosed "[" "]" (optional (listed starPattern)),
      mappingPattern]
  seq (separated (mark "|") closed) (optional (after "as" captured))

/-! Statements -/

def targets : Form := listed (rule .target)

def place : Form :=
  let starts := ahead (marks [".", "(", "["])
  all [rule .atom, many (seq (rule .trailer) starts), alt attribute_ subscript]

def target : Form :=
  let others := preceded "," (optional targets)
  let starred := all [ahead (mark "*"), rule .target, others]
  let plain := all [without (mark "*"), rule .target, optional others]
  oneOf
    [preceded "*" (seq (without (mark "*")) (rule .target)), place, name,
      enclosed "(" ")" (optional (alt starred plain)),
      enclosed "[" "]" (optional targets)]

def deleted : Form :=
  let several := optional (listed (rule .deleted))
  oneOf [place, name, enclosed "(" ")" several, enclosed "[" "]" several]

def augmented : Form :=
  marks ["+=", "-=", "*=", "/=", "//=", "%=", "@=", "&=", "|=", "^=", ">>=", "<<=", "**="]

def assignment : Form :=
  oneOf
    [all [rule .single, mark ":", expr, optional (preceded "=" value)],
      all [repeated (seq targets (mark "=")), value, without (mark "=")],
      all [rule .single, augmented, value]]

def importedNames : Form :=
  separated (mark ",") (seq name (optional (after "as" name)))

def imports : Form :=
  let dots := marks [".", "..."]
  let source := alt (seq (many dots) dotted) (repeated dots)
  let parted := enclosed "(" ")" (seq importedNames (optional (mark ",")))
  alt (after "import" (separated (mark ",") (seq dotted (optional (after "as" name)))))
    (all [word "from", source, word "import", oneOf [mark "*", parted, importedNames]])

def typeParams : Form :=
  let bounded := seq name (optional (preceded ":" expr))
  enclosed "[" "]" (listed (oneOf [bounded, preceded "*" name, preceded "**" name]))

def typeAlias : Form :=
  all [word "type", name, optional typeParams, mark "=", expr]

def simple : Form :=
  oneOf
    [words ["pass", "break", "continue"], imports, after "del" (listed (rule .deleted)),
      after "return" (optional (listed (rule .starred))),
      after "raise" (optional (seq expr (optional (after "from" expr)))),
      seq (words ["global", "nonlocal"]) (separated (mark ",") name),
      after "assert" (seq expr (optional (preceded "," expr))), assignment, typeAlias, value]

def lastly : Form :=
  optional (after "else" block)

def function : Form :=
  all
    [word "def", name, optional typeParams, enclosed "(" ")" (rule .params),
      optional (preceded "->" expr), block]

def classForm : Form :=
  let bases := seq (without (seq named (rule .comprehension))) (rule .arguments)
  all [word "class", name, optional typeParams, optional (enclosed "(" ")" bases), block]

def loop : Form :=
  all [word "for", targets, word "in", listed (rule .starred), block, lastly]

def resources : Form :=
  let resource := seq expr (optional (after "as" (rule .target)))
  seq (word "with")
    (alt (all [mark "(", listed resource, mark ")", block])
      (seq (separated (mark ",") resource) block))

def guarded : Form :=
  let caught := seq expr (optional (after "as" name))
  let handler := all [word "except", optional caught, block]
  let groupHandler := all [word "except", preceded "*" caught, block]
  let finally_ := after "finally" block
  let handlers := alt (repeated groupHandler) (repeated handler)
  all [word "try", block, alt (all [handlers, lastly, optional finally_]) finally_]

def choice : Form :=
  let case_ :=
    all
      [word "case", alt (seq starPattern otherPatterns) (rule .pattern), optional (after "if" named),
        block]
  let subject := alt (seq unpacked (preceded "," (optional (listed member)))) (seq named members)
  all
    [word "match", subject, mark ":", token .newline, token .indent, repeated case_, token .dedent]

def statement : Form :=
  let async_ := after "async" (oneOf [function, loop, resources])
  let decorator := all [mark "@", named, token .newline]
  oneOf
    [all [word "if", named, block, many (all [word "elif", named, block]), lastly],
      all [word "while", named, block, lastly], loop, resources, guarded, function, classForm, async_,
      seq (repeated decorator) (oneOf [function, classForm, after "async" function]), choice,
      all [separated (mark ";") (rule .simple), optional (mark ";"), token .newline]]

def body : Rule → Form
  | .atom => atom
  | .trailer => trailer
  | .arguments => arguments
  | .target => target
  | .single => oneOf [place, name, enclosed "(" ")" (rule .single)]
  | .deleted => deleted
  | .expression =>
    alt (all [word "lambda", rule .lambdaParams, mark ":", expr])
      (seq (rule .disjunction) (optional (all [word "if", rule .disjunction, word "else", expr])))
  | .disjunction => separated (word "or") (separated (word "and") (rule .inversion))
  | .inversion =>
    alt (after "not" (rule .inversion)) (separated comparison (rule .bitwise))
  | .bitwise => separated binary (rule .unary)
  | .unary => alt (seq (marks ["+", "-", "~"]) (rule .unary)) (seq (optional (word "await")) primary)
  | .starred => alt unpacked expr
  | .named => alt assigned (seq expr (without (mark ":=")))
  | .field => field
  | .comprehension =>
    repeated (all [optional (word "async"), word "for", targets, word "in", rule .disjunction,
      many (after "if" (rule .disjunction))])
  | .suspension =>
    after "yield" (alt (after "from" expr) (optional (listed (rule .starred))))
  | .lambdaParams => params ":" name name
  | .params =>
    params ")" (seq name (optional (preceded ":" expr)))
      (seq name (optional (preceded ":" (rule .starred))))
  | .pattern => casePattern
  | .simple => simple
  | .block =>
    alt (all [token .newline, token .indent, repeated (rule .statement), token .dedent])
      (all [separated (mark ";") (rule .simple), optional (mark ";"), token .newline])
  | .statement => statement

def depthPerToken : Nat := 400

end Grammar

def wellFormed (code : String) : Bool :=
  match Token.ofText? code with
  | none => false
  | some tokens =>
    let fuel := Grammar.depthPerToken * (tokens.length + 1)
    Pattern.rest? Grammar.body fuel (.many (.rule .statement)) tokens = some []

end Codegen.Source
