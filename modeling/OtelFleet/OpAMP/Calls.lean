import OtelFleet.OpAMP.Handler

/-! # One replica, call after call

The control plane as one process: it handles one call after the other, and may be
restarted in between, with what it holds in memory lost.  The reports that it took are
kept as a history.
-/

namespace OtelFleet.OpAMP

open Semantics Store

inductive Call where
  | message (incoming : Incoming)
  | close (conn : Conn) (now : Int)
  | push (customerID : Uuid)
  | commit (edgeConfig : Uuid → Except String String)
  | restart

structure Desk where
  world : World
  /-- The reports of the messages that were accepted, with their UID, oldest first. -/
  taken : List (Bytes × RemoteConfigReport) := []

def takenFrom (incoming : Incoming) : Stage → List (Bytes × RemoteConfigReport)
  | .answered _ => []
  | .admitted _ _ => incoming.msg.remoteConfigStatus.toList.map fun report => (incoming.msg.instanceUID, report)

def Desk.handle (env : Env) (desk : Desk) : Call → Desk
  | .message incoming =>
    { world := ((handleMessage env 0 incoming).run desk.world).2
      taken := desk.taken ++ takenFrom incoming ((receive env 0 incoming).run desk.world).1 }
  | .close conn now => { desk with world := ((handleConnectionClose env 0 conn now).run desk.world).2 }
  | .push customerID => { desk with world := ((edgeConfigChanged env 0 customerID).run desk.world).2 }
  | .commit edgeConfig => { desk with world := { desk.world with edgeConfig := edgeConfig } }
  | .restart => { desk with world := { desk.world with registries := fun _ => .empty } }

def Desk.reports (desk : Desk) (uid : Bytes) : List RemoteConfigReport :=
  (desk.taken.filter fun entry => entry.1 = uid).map Prod.snd

end OtelFleet.OpAMP
