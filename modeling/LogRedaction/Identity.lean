/-
LogRedaction.Identity — the user whose traces are removed.

The fields of an identity arrive as data of unknown shape. Checking them gives an `Identity`,
from which the values of the placeholders are computed.
-/
import LogRedaction.Template
import LogRedaction.Unicode.Case
import LogRedaction.Value.Printer

namespace LogRedaction

/-- The fields of an identity before they are checked. -/
structure IdentityForm where
  username : Value
  tenantDomain : Value
  tenantId : Value
  userstoreDomain : Value
  pseudonym : Value

/-- A user, and the text that takes the place of everything about the user. -/
structure Identity where
  username : Text
  tenantDomain : Text
  tenantId : Nat
  userstoreDomain : Text
  pseudonym : Text
deriving DecidableEq, Repr

/-- What is wrong with a field of an identity. -/
inductive IdentityError where
  | noText (field : Text) (value : Value)
  | noInteger (value : Value)
  | negative (value : Int)

/-- The wording of an error. -/
def IdentityError.message : IdentityError → Text
  | noText field value => field ++ " must be a non-empty string, got " ++ value.display
  | noInteger value => "tenant_id must be an integer, got " ++ value.display
  | negative value => "tenant_id must not be negative, got " ++ toString value

namespace IdentityForm

/-- A field that has to be a text and not empty. -/
def checkText (field : Text) : Value → Except IdentityError Text
  | .text s => if s = "" then .error (.noText field (.text s)) else .ok s
  | value => .error (.noText field value)

/-- A field that has to be a whole number and not negative. -/
def checkNumber : Value → Except IdentityError Nat
  | .int n => if n < 0 then .error (.negative n) else .ok n.toNat
  | value => .error (.noInteger value)

/-- The identity, if every field is usable. -/
def check (form : IdentityForm) : Except IdentityError Identity := do
  let username ← checkText "username" form.username
  let tenantDomain ← checkText "tenant_domain" form.tenantDomain
  let userstoreDomain ← checkText "userstore_domain" form.userstoreDomain
  let pseudonym ← checkText "pseudonym" form.pseudonym
  let tenantId ← checkNumber form.tenantId
  return { username, tenantDomain, tenantId, userstoreDomain, pseudonym }

end IdentityForm

namespace Identity

/-- The user store that is never written in front of a name. -/
def primaryUserstore : Text := "PRIMARY"

/-- The user store as logs show it: nothing for the primary one, in whatever case it is written,
and otherwise with an upper case letter first. -/
def shownUserstore (domain : Text) : Text :=
  if domain.toList.flatMap Unicode.upperText = primaryUserstore.toList then ""
  else match domain.toList with
    | [] => ""
    | c :: rest => Text.ofList (Unicode.upperText c ++ rest)

/-- The values of the placeholders. -/
def mapping (identity : Identity) : Mapping :=
  [("username", identity.username),
   ("tenant-domain", identity.tenantDomain),
   ("tenant-id", toString identity.tenantId),
   ("userstore-domain", shownUserstore identity.userstoreDomain)]

end Identity

end LogRedaction
