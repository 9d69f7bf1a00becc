/-!
What a planned change does to its resource.
-/

namespace Reconcile

inductive Action where
  | add
  /-- Fields that can be altered differ. -/
  | change
  /-- A field that cannot be altered differs: drop and create. -/
  | replace
  /-- Only the owner differs. -/
  | transfer
  | remove
  | noop
deriving DecidableEq, Repr, Inhabited

namespace Action

def all : List Action := [add, change, replace, transfer, remove, noop]

def text : Action → String
  | add => "ADD"
  | change => "CHANGE"
  | replace => "REPLACE"
  | transfer => "TRANSFER"
  | remove => "REMOVE"
  | noop => "NOOP"

instance : ToString Action := ⟨text⟩

def ofText? (s : String) : Option Action := all.find? fun a => a.text == s

theorem ofText?_text (a : Action) : ofText? a.text = some a := by cases a <;> rfl

def symbol : Action → String
  | add => "+"
  | change | transfer => "~"
  | replace => "-/+"
  | remove => "-"
  | noop => " "

/-- Whether the action touches the remote. -/
def isMutation : Action → Bool
  | noop => false
  | _ => true

end Action
end Reconcile
