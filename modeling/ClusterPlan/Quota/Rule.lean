import ClusterPlan.Quota.Limit

/-!
Quota rules. A key has four fields: queue, project, job type and user. In each stands a name, `*`
for all values together, or `/` for every value by itself.
-/

namespace ClusterPlan

inductive KeyField where
  | exactly (value : String)
  | any
  | each
  deriving DecidableEq, Repr

namespace KeyField

def ofText (text : String) : KeyField :=
  let name := Text.trim text
  if name = "*" then any else if name = "/" then each else exactly name

def text : KeyField → String
  | exactly value => value
  | any => "*"
  | each => "/"

def accepts : KeyField → String → Bool
  | exactly expected, value => expected == value
  | any, _ | each, _ => true

def isExact : KeyField → Bool
  | exactly _ => true
  | any | each => false

end KeyField

structure Claimant where
  queue : String
  project : String
  jobType : String
  user : String
  deriving DecidableEq, Repr

namespace Claimant

def values (c : Claimant) : List String := [c.queue, c.project, c.jobType, c.user]

end Claimant

structure RuleKey where
  queue : KeyField
  project : KeyField
  jobType : KeyField
  user : KeyField
  deriving DecidableEq, Repr

namespace RuleKey

def parse (text : String) : Except Error RuleKey :=
  match (Text.split ',' text).map KeyField.ofText with
  | [queue, project, jobType, user] => .ok ⟨queue, project, jobType, user⟩
  | _ => .error (.config (.keyForm text))

def fields (k : RuleKey) : List KeyField := [k.queue, k.project, k.jobType, k.user]

def text (k : RuleKey) : String := Text.join "," (k.fields.map KeyField.text)

def specificity (k : RuleKey) : Nat := k.fields.countP KeyField.isExact

def accepts (k : RuleKey) (c : Claimant) : Bool :=
  (k.fields.zip c.values).all fun (f, v) => f.accepts v

/-- Whether a claim of `other` counts when `c` wants to claim: the rule is about both, and they
agree wherever it counts every value by itself. -/
def countsWith (k : RuleKey) (c other : Claimant) : Bool :=
  k.accepts other &&
    (k.fields.zip (other.values.zip c.values)).all fun (f, v, w) => f != .each || v == w

end RuleKey

structure Rule where
  key : RuleKey
  limits : Limits
  deriving DecidableEq, Repr

namespace Rule

def ofEntry (key : String) (limits : List Json) : Except Error Rule :=
  match limits with
  | [units, jobs, hours] => do
      let limits : Limits := ⟨← Limit.ofJson units, ← Limit.ofJson jobs, ← Limit.ofJson hours⟩
      return ⟨← RuleKey.parse key, limits⟩
  | _ => .error (.config (.limitCount key))

/-- The rules of a map from keys to limits, in the order of the map. -/
def ofMap (entries : List (String × List Json)) : Except Error (List Rule) :=
  entries.mapM fun e => ofEntry e.1 e.2

end Rule
end ClusterPlan
