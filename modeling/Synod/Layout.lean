import Synod.Text.Shown

/-!
The configuration of a cluster that the acceptors agree on, stamped with the epoch it was issued
for.
-/
namespace Synod

structure Layout where
  epoch : UInt64
  layoutServers : List String
  sequencers : List String
  logServers : List String
deriving DecidableEq, Inhabited

namespace Layout

/-- The layout in which one endpoint plays every role. -/
def single (endpoint : String) : Layout := ⟨0, [endpoint], [endpoint], [endpoint]⟩

instance : Shown Layout where
  shown l := Shown.record "ClusterLayout"
    [("epoch", shown l.epoch), ("layout_servers", shown l.layoutServers),
      ("sequencers", shown l.sequencers), ("log_servers", shown l.logServers)]

end Layout
end Synod
