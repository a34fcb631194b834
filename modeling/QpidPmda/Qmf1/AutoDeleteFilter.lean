import QpidPmda.Qmf1.ListenerHistory

/-! # What the auto-delete filter leaves out

Two runs are compared: the default one on all calls, and the one that includes
auto-delete objects on the calls that are not about such objects. They agree on
an object exactly when its last properties pass the auto-delete test and its
statistics, if there are any, did not all arrive before its properties.
-/

namespace QpidPmda.Qmf1
open Qpid Pcp Foundations ConsoleListener

namespace ListenerCall
variable {ObjectId Value : Type} [ConsoleValue Value ObjectId] [ToString ObjectId]
  [DecidableEq ObjectId]

/-- The properties and the statistics of a queue that is not auto-delete. -/
def plainQueue : Object Nat (QmfValue Nat) :=
  brokerObject "queue" 1 [("name", .string "orders"), ("autoDelete", .bool false)]

def plainQueueStats : Object Nat (QmfValue Nat) :=
  brokerObject "queue" 1 [("msgDepth", .uint64 3)]

end ListenerCall

end QpidPmda.Qmf1
