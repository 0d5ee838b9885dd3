import ClusterPlan.Filter.Basic
import ClusterPlan.Text.Alphanumeric

/-!
The lexemes of a filter. Words are runs of letters, digits, `_`, `.` and `-`; quoted text ends at
the first quote of the kind that opened it and has no escapes.
-/

namespace ClusterPlan.Filter

inductive Token where
  | word (s : String)
  | quoted (s : String)
  | comparison (c : Comparison)
  | opening
  | closing
  | comma
  deriving DecidableEq, Repr

inductive LexicalFault where
  | unterminated
  | loneBang
  | unexpected (c : Char)
  deriving DecidableEq, Repr

def isWordChar (c : Char) : Bool :=
  Text.isAlphanumeric c || c == '_' || c == '.' || c == '-'

theorem length_dropWhile_le (p : Char → Bool) (cs : List Char) :
    (cs.dropWhile p).length ≤ cs.length := by
  induction cs with
  | nil => simp
  | cons c rest ih =>
      simp only [List.dropWhile_cons, List.length_cons]
      split
      · omega
      · exact Nat.le_refl _

def tokens : List Char → Except LexicalFault (List Token)
  | [] => .ok []
  | '<' :: '=' :: rest => do return .comparison .lessEqual :: (← tokens rest)
  | '<' :: '>' :: rest => do return .comparison .notEqual :: (← tokens rest)
  | '>' :: '=' :: rest => do return .comparison .greaterEqual :: (← tokens rest)
  | '!' :: '=' :: rest => do return .comparison .notEqual :: (← tokens rest)
  | c :: rest =>
      if Text.isBlank c then tokens rest
      else if c = '(' then do return .opening :: (← tokens rest)
      else if c = ')' then do return .closing :: (← tokens rest)
      else if c = ',' then do return .comma :: (← tokens rest)
      else if c = '\'' ∨ c = '"' then
        match h : rest.dropWhile (· ≠ c) with
        | [] => .error .unterminated
        | _ :: after =>
            have : after.length < rest.length := by
              have := length_dropWhile_le (· ≠ c) rest
              rw [h] at this
              exact this
            do return .quoted (String.ofList (rest.takeWhile (· ≠ c))) :: (← tokens after)
      else if c = '=' then do return .comparison .equal :: (← tokens rest)
      else if c = '<' then do return .comparison .less :: (← tokens rest)
      else if c = '>' then do return .comparison .greater :: (← tokens rest)
      else if c = '!' then .error .loneBang
      else if isWordChar c then
        have := length_dropWhile_le isWordChar rest
        do
          return .word (String.ofList (c :: rest.takeWhile isWordChar)) ::
            (← tokens (rest.dropWhile isWordChar))
      else .error (.unexpected c)
termination_by cs => cs.length

end ClusterPlan.Filter
