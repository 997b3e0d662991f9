import LayeredRights.Kdl.Node.Printer
import LayeredRights.Rights.Document

/-!
# Writing rights documents

The mode comes first, then the profiles, then the user profiles, in order. Every profile has a block
of actions and every user profile a block of profiles, empty or not. Origins are not written: the
file in which a document stands implies them.
-/

namespace LayeredRights

open Kdl (Node)

/-- A node whose only entry is a string. -/
def stringNode (name argument : String) (block : Option (List Node)) : Node :=
  .mk name [.argument (.text argument)] block

/-- A node that lists strings in its block. -/
def dashNode (name : String) (items : List String) : Node :=
  .mk name [] (some (items.map fun s ↦ stringNode "-" s none))

/-- The node of a profile. -/
def Profile.node (p : Profile) : Node :=
  stringNode "profile" p.name (some [dashNode "actions" p.actions])

/-- The node of a user profile. -/
def UserProfile.node (u : UserProfile) : Node :=
  stringNode "userprofile" u.login (some [dashNode "profiles" u.profiles])

namespace Document

/-- The nodes of a document. -/
def nodes (d : Document) : List Node :=
  stringNode "mode" d.mode.name none ::
    (d.profiles.map Profile.node ++ d.userProfiles.map UserProfile.node)

/-- The text of a document. -/
def text (d : Document) : String := Kdl.writeDocument d.nodes

end Document

end LayeredRights
