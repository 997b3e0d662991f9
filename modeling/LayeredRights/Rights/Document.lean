import LayeredRights.Rights.Policy
import LayeredRights.Rights.Validation

/-!
# Rights documents

A `Document` is one layer of the configuration: the factory defaults or an administrator's
override.
-/

namespace LayeredRights

/-- One layer of the rights configuration. -/
structure Document where
  mode : PolicyMode
  profiles : List Profile := []
  userProfiles : List UserProfile := []
  deriving DecidableEq, Repr, Inhabited

namespace Document

/-- The first break of the rules for entries. -/
def offence? (d : Document) : Option Offence := firstOffence? d.profiles d.userProfiles

/-- The document with every entry's origin replaced. Origins are no part of a stored document, so
two documents say the same when they agree after this. -/
def tagged (d : Document) (o : Origin) : Document :=
  { d with
    profiles := d.profiles.map (·.tagged o)
    userProfiles := d.userProfiles.map (·.tagged o) }

end Document

end LayeredRights
