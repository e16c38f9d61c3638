import Spillway.Filter.Wire
import Spillway.Id

/-!
# Messages between the parties of a query

Workers send contributions and subscriptions to the coordinator of their query; the coordinator sends
the resolution of a filter, or the end of the query, to workers. Filters travel in their wire form.
-/

namespace Spillway

/-- What a message says. -/
inductive Notice where
  | contribution (filter : FilterId) (worker : WorkerId) (producer : ProducerId) (payload : List UInt8)
  | subscribe (filter : FilterId) (worker : WorkerId)
  | publish (filter : FilterId) (payload : List UInt8)
  | timedOut (filter : FilterId)
  | disabled (filter : FilterId)
  | cancel
  deriving DecidableEq, Repr

/-- Name of what a message says. -/
def Notice.name : Notice → String
  | contribution .. => "partial"
  | subscribe .. => "subscribe"
  | publish .. => "publish"
  | timedOut _ => "timed_out"
  | disabled _ => "disabled"
  | cancel => "cancel"

/-- The numbers that describe a notice in a report; of a payload it is the length. -/
def Notice.figures : Notice → List Nat
  | contribution filter worker producer payload =>
    [filter.value.toNat, worker.value.toNat, producer.value.toNat, payload.length]
  | subscribe filter worker => [filter.value.toNat, worker.value.toNat]
  | publish filter payload => [filter.value.toNat, payload.length]
  | timedOut filter => [filter.value.toNat]
  | disabled filter => [filter.value.toNat]
  | cancel => []

/-- A message within one query. -/
structure Message where
  query : QueryId
  notice : Notice
  deriving DecidableEq, Repr

/-- Whom a message is for. -/
inductive Endpoint where
  | coordinator
  | worker (id : WorkerId)
  deriving DecidableEq, Repr

/-- The endpoint as it is called in reports. -/
def Endpoint.name : Endpoint → String
  | coordinator => "coordinator"
  | worker id => "worker-" ++ id.render

/-- The filter that a payload holds. -/
def decodePayload (payload : List UInt8) : Except Status KeyFilter :=
  (Wire.decode payload).mapError Wire.Fault.status

end Spillway
