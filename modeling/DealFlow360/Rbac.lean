import DealFlow360.Js

/-!
# Permissions of a signed-in user

A permission is asked for by its key, which is trimmed and lower case on both
sides; `defaultUserPermissions` is what the role of an ordinary account may do.
The services that check permissions of their own, realtime channels and copilot
tools, use these.
-/

namespace DealFlow360

structure AuthenticatedUser where
  id : String
  email : String
  roles : List String
  permissions : List String
  deriving DecidableEq, Repr

/-- Permission keys are compared after trimming and in lower case. -/
def normalizePermissionKey (key : String) : String := (trim key).toLower

def hasPermission (user : AuthenticatedUser) (permission : String) : Bool :=
  normalizePermissionKey permission ∈ user.permissions.map normalizePermissionKey

def hasAnyPermission (user : AuthenticatedUser) (permissions : List String) : Bool :=
  permissions.any (hasPermission user)

/-- `DEFAULT_ROLE_PERMISSIONS` of the role `user`. -/
def defaultUserPermissions : List String := ["notifications.read", "files.read", "files.write"]

end DealFlow360
