import Reconcile.Collection.SortedMap
import Reconcile.Identifier
import Reconcile.ResourceType
/-!
The address of a resource: account, type, qualified name and discriminating parameters.  A grant
carries its privilege, target and grantee as parameters, so that every privilege is a resource.
-/

namespace Reconcile

/-- Where in the account a named resource lives. -/
inductive Container where
  | account
  | database (database : Identifier)
  | schema (database : Identifier) (schema : Identifier)
deriving DecidableEq, Repr

namespace Container

def names : Container → List Identifier
  | account => []
  | database d => [d]
  | schema d s => [d, s]

/-- The container that raw names spell, outermost first.  No resource lives deeper than in a
schema, so names after the second one are not looked at. -/
def ofNames : List String → Container
  | [] => account
  | [d] => database (.ofText d)
  | d :: s :: _ => schema (.ofText d) (.ofText s)

def database? : Container → Option Identifier
  | account => none
  | database d => some d
  | schema d _ => some d

def schema? : Container → Option Identifier
  | schema _ s => some s
  | _ => none

theorem names_injective {c d : Container} (h : c.names = d.names) : c = d := by
  cases c <;> cases d <;> simp_all [names]

end Container

/-- The address of a resource. -/
structure Urn where
  account : String
  type : ResourceType
  container : Container
  name : Identifier
  params : SortedMap String String
deriving DecidableEq

namespace Urn

/-- Addresses are ordered by account, type, container, name and parameters, text by code points. -/
def order : Urn → Urn → Ordering :=
  compareLex (compareOn account) <| compareLex (compareOn type) <|
    compareLex (compareOn fun u => u.container.names) <| compareLex (compareOn name) <|
      compareOn params

instance : Ord Urn := ⟨order⟩

instance : Std.TransOrd Urn :=
  inferInstanceAs <| Std.TransCmp <| compareLex (compareOn account) <|
    compareLex (compareOn type) <| compareLex (compareOn fun u => u.container.names) <|
      compareLex (compareOn name) <| compareOn params

instance : Std.LawfulEqOrd Urn where
  compare_self {u} := by
    change order u u = .eq
    simp [order, compareLex_eq_eq, compareOn]
  eq_of_compare {u v} h := by
    have h : order u v = .eq := h
    simp only [order, compareLex_eq_eq, compareOn, Std.compare_eq_iff_eq] at h
    obtain ⟨h₁, h₂, h₃, h₄, h₅⟩ := h
    have h₃ := Container.names_injective h₃
    cases u; cases v
    simp_all

def ofNames (account : String) (type : ResourceType) (container : List String) (name : String) :
    Urn :=
  ⟨account, type, .ofNames container, .ofText name, .empty⟩

def ofAccount (account : String) : Urn := ofNames account .account [] "ACCOUNT"

def ofRole (account : String) (name : String) : Urn := ofNames account .role [] name

def withParam (u : Urn) (key value : String) : Urn := { u with params := u.params.insert key value }

def param? (u : Urn) (key : String) : Option String := u.params.get? key

/-- The address of the schema or database that immediately contains the resource. -/
def parent? (u : Urn) : Option Urn :=
  match u.container with
  | .account => none
  | .database d => some ⟨u.account, .database, .account, d, .empty⟩
  | .schema d s => some ⟨u.account, .schema, .database d, s, .empty⟩

end Urn

/-! ## Objects that come with every account -/

/-- Roles that exist in every account and are neither created nor dropped. -/
def systemRoles : List String :=
  ["ACCOUNTADMIN", "SECURITYADMIN", "USERADMIN", "SYSADMIN", "ORGADMIN", "PUBLIC"]

/-- Schemas that come with every database. -/
def systemSchemas : List String := ["PUBLIC", "INFORMATION_SCHEMA"]

def systemDatabase : String := "SNOWFLAKE"

def isSystemRole (name : String) : Bool := systemRoles.contains name

end Reconcile
