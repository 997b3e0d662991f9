import LayeredRights.Rights.Engine
import LayeredRights.Text.Quoted

/-!
# Summaries

One-line descriptions of the parts of an engine, for diagnostics.
-/

namespace LayeredRights

/-- How many listeners are registered. -/
def Registry.summary (r : Registry) : String :=
  "ChangeNotifier \x7b listeners: " ++ toString r.size ++ " \x7d"

/-- The name of a registration. -/
def listenerName (id : Nat) : String := "ListenerId(" ++ toString id ++ ")"

namespace Engine

/-- The state of the store and its listeners. -/
def storeSummary (e : Engine) : String :=
  "RightsStore \x7b edit_action: " ++ Text.quote e.store.editAction ++ ", loaded: " ++
    toString e.store.resident.isSome ++ ", notifier: " ++ e.registry.summary ++ " \x7d"

/-- The state of the resolver. -/
def resolverSummary (e : Engine) : String :=
  "RightsResolver \x7b listener: " ++ listenerName ((e.resolver.map (·.id)).getD 0) ++
    ", cached_logins: " ++ toString e.cachedLogins ++ " \x7d"

end Engine

end LayeredRights
