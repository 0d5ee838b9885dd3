import ClusterPlan.Filter.Token

/-!
The grammar of filters. OR binds weaker than AND, AND weaker than NOT, and both join from the left.
Keywords are words in any case. A fault tells how many tokens had been taken when it was found.
-/

namespace ClusterPlan.Filter

inductive Expectation where
  | property
  | inAfterNot
  | comparison
  | value
  | openingAfterIn
  | commaOrClosing
  | closing
  | ending
  deriving DecidableEq, Repr

namespace Expectation

def text : Expectation → String
  | property => "expected a property name"
  | inAfterNot => "expected IN after NOT"
  | comparison => "expected a comparison operator"
  | value => "expected a value"
  | openingAfterIn => "expected '(' after IN"
  | commaOrClosing => "expected ',' or ')' in IN list"
  | closing => "missing closing parenthesis"
  | ending => "unexpected trailing input"

end Expectation

/-- Where reading stopped: what was wanted, and how many tokens were left, -1 past the end. -/
structure Stop where
  wanted : Expectation
  left : Int
  deriving DecidableEq, Repr

/-- A stop at the first of the given tokens, which has been taken. -/
def stopPast (wanted : Expectation) (ts : List Token) : Stop := ⟨wanted, ts.length - 1⟩

def isKeyword (keyword : String) : Token → Bool
  | .word w => Text.sameIgnoringCase w keyword
  | _ => false

def value? (ts : List Token) : Except Stop (String × List Token) :=
  match ts with
  | .word v :: rest | .quoted v :: rest => .ok (v, rest)
  | _ => .error (stopPast .value ts)

/-- The values of a list after its first one, up to the closing parenthesis. -/
def moreValues : List Token → Except Stop (List String × List Token)
  | .closing :: rest => .ok ([], rest)
  | .comma :: .word v :: rest | .comma :: .quoted v :: rest => do
      let (values, rest) ← moreValues rest
      return (v :: values, rest)
  | .comma :: rest => .error (stopPast .value rest)
  | ts => .error (stopPast .commaOrClosing ts)

def listing (property : String) (negated : Bool) :
    List Token → Except Stop (Filter × List Token)
  | .opening :: rest => do
      let (first, rest) ← value? rest
      let (others, rest) ← moreValues rest
      return (.among property (first :: others) negated, rest)
  | ts => .error (stopPast .openingAfterIn ts)

/-- A comparison or a list, after the name of the property. -/
def afterProperty (property : String) (ts : List Token) : Except Stop (Filter × List Token) :=
  match ts with
  | t :: rest =>
      if isKeyword "not" t then
        match rest with
        | u :: rest' =>
            if isKeyword "in" u then listing property true rest'
            else .error ⟨.inAfterNot, rest.length⟩
        | [] => .error ⟨.inAfterNot, 0⟩
      else if isKeyword "in" t then listing property false rest
      else
        match t with
        | .comparison c => do
            let (v, rest) ← value? rest
            return (.compare property c v, rest)
        | _ => .error (stopPast .comparison ts)
  | [] => .error (stopPast .comparison [])

def predicate (ts : List Token) : Except Stop (Filter × List Token) :=
  match ts with
  | .word property :: rest => afterProperty property rest
  | _ => .error (stopPast .property ts)

mutual

/-- Conjunctions joined by OR. Every step takes a token or goes to a stronger operator, so the
count of steps given by `parseTokens` does not run out. -/
def disjunction : Nat → List Token → Except Stop (Filter × List Token)
  | 0, ts => .error (stopPast .property ts)
  | n + 1, ts => do
      let (first, rest) ← conjunction n ts
      moreDisjuncts n first rest

def moreDisjuncts : Nat → Filter → List Token → Except Stop (Filter × List Token)
  | 0, _, ts => .error (stopPast .property ts)
  | n + 1, left, ts =>
      match ts with
      | t :: rest =>
          if isKeyword "or" t then do
            let (right, rest) ← conjunction n rest
            moreDisjuncts n (.or left right) rest
          else .ok (left, ts)
      | [] => .ok (left, [])

/-- Operands joined by AND. -/
def conjunction : Nat → List Token → Except Stop (Filter × List Token)
  | 0, ts => .error (stopPast .property ts)
  | n + 1, ts => do
      let (first, rest) ← operand n ts
      moreConjuncts n first rest

def moreConjuncts : Nat → Filter → List Token → Except Stop (Filter × List Token)
  | 0, _, ts => .error (stopPast .property ts)
  | n + 1, left, ts =>
      match ts with
      | t :: rest =>
          if isKeyword "and" t then do
            let (right, rest) ← operand n rest
            moreConjuncts n (.and left right) rest
          else .ok (left, ts)
      | [] => .ok (left, [])

/-- A negation, a filter in parentheses, or a predicate. -/
def operand : Nat → List Token → Except Stop (Filter × List Token)
  | 0, ts => .error (stopPast .property ts)
  | n + 1, ts =>
      match ts with
      | t :: rest =>
          if isKeyword "not" t then do
            let (inner, rest) ← operand n rest
            return (.not inner, rest)
          else if t = .opening then do
            let (inner, rest) ← disjunction n rest
            match rest with
            | .closing :: rest => return (inner, rest)
            | _ => .error (stopPast .closing rest)
          else predicate ts
      | [] => predicate []

end

def parseTokens (ts : List Token) : Except Stop Filter := do
  let (f, rest) ← disjunction (3 * ts.length + 3) ts
  if rest = [] then return f else .error ⟨.ending, rest.length⟩

inductive Fault where
  | lexical (expression : String) (fault : LexicalFault)
  | malformed (expression : String) (wanted : Expectation) (position : Int)
  deriving DecidableEq, Repr

namespace Fault

def message : Fault → String
  | lexical expression .unterminated => s!"Unterminated string literal in filter '{expression}'."
  | lexical expression .loneBang => s!"Unexpected '!' in filter '{expression}'."
  | lexical expression (.unexpected c) => s!"Unexpected character '{c}' in filter '{expression}'."
  | malformed expression wanted position =>
      let reason := wanted.text
      s!"Malformed filter '{expression}': {reason} (token {position})."

end Fault

def parse (expression : String) : Except Fault Filter :=
  match tokens expression.toList with
  | .error fault => .error (.lexical expression fault)
  | .ok ts =>
      match parseTokens ts with
      | .error stop => .error (.malformed expression stop.wanted (ts.length - stop.left))
      | .ok f => .ok f

end ClusterPlan.Filter
