import QpidPmda.Qmf1.ConsoleUtils

/-! # The metrics and the instance domains they belong to

The table of supported metrics, with the columns that fetching reads: the item
number, the name of the QMF attribute, the type and the instance domain. Even
clusters hold properties and odd clusters hold statistics.
-/

namespace QpidPmda.Qmf1
open Qpid ConsoleUtils

/-- The three instance domains of the PMDA. -/
inductive Domain where
  | broker
  | queue
  | system
  deriving DecidableEq, Repr

/-- The number that the constructor gives each domain. -/
def Domain.indom : Domain → Nat
  | .broker => 0
  | .queue => 1
  | .system => 2

/-- The types that the table names; `pcp::type` maps them to PCP's own. -/
inductive SourceType where
  | uint16
  | uint32
  | uint64
  | string
  deriving DecidableEq, Repr

structure MetricDescription where
  item : Nat
  metricName : String
  type : SourceType
  domain : Domain
  deriving DecidableEq, Repr

/-- Cluster 0: `org.apache.qpid.broker::broker::properties`. -/
def brokerProperties : List MetricDescription := [
  ⟨0, "connBacklog", .uint16, .broker⟩,
  ⟨1, "dataDir", .string, .broker⟩,
  ⟨2, "maxConns", .uint16, .broker⟩,
  ⟨3, "mgmtPubInterval", .uint16, .broker⟩,
  ⟨4, "mgmtPublish", .string, .broker⟩,
  ⟨5, "name", .string, .broker⟩,
  ⟨6, "port", .uint16, .broker⟩,
  ⟨7, "stagingThreshold", .uint32, .broker⟩,
  ⟨8, "systemRef", .string, .broker⟩,
  ⟨9, "version", .string, .broker⟩,
  ⟨10, "workerThreads", .uint16, .broker⟩]

/-- Cluster 1: `org.apache.qpid.broker::broker::statistics`. -/
def brokerStatistics : List MetricDescription := [
  ⟨0, "abandoned", .uint64, .broker⟩,
  ⟨1, "abandonedViaAlt", .uint64, .broker⟩,
  ⟨2, "acquires", .uint64, .broker⟩,
  ⟨3, "byteDepth", .uint64, .broker⟩,
  ⟨4, "byteFtdDepth", .uint64, .broker⟩,
  ⟨5, "byteFtdDequeues", .uint64, .broker⟩,
  ⟨6, "byteFtdEnqueues", .uint64, .broker⟩,
  ⟨7, "bytePersistDequeues", .uint64, .broker⟩,
  ⟨8, "bytePersistEnqueues", .uint64, .broker⟩,
  ⟨9, "byteTotalDequeues", .uint64, .broker⟩,
  ⟨10, "byteTotalEnqueues", .uint64, .broker⟩,
  ⟨11, "byteTxnDequeues", .uint64, .broker⟩,
  ⟨12, "byteTxnEnqueues", .uint64, .broker⟩,
  ⟨13, "discardsLvq", .uint64, .broker⟩,
  ⟨14, "discardsNoRoute", .uint64, .broker⟩,
  ⟨15, "discardsOverflow", .uint64, .broker⟩,
  ⟨16, "discardsPurge", .uint64, .broker⟩,
  ⟨17, "discardsRing", .uint64, .broker⟩,
  ⟨18, "discardsSubscriber", .uint64, .broker⟩,
  ⟨19, "discardsTtl", .uint64, .broker⟩,
  ⟨20, "msgDepth", .uint64, .broker⟩,
  ⟨21, "msgFtdDepth", .uint64, .broker⟩,
  ⟨22, "msgFtdDequeues", .uint64, .broker⟩,
  ⟨23, "msgFtdEnqueues", .uint64, .broker⟩,
  ⟨24, "msgPersistDequeues", .uint64, .broker⟩,
  ⟨25, "msgPersistEnqueues", .uint64, .broker⟩,
  ⟨26, "msgTotalDequeues", .uint64, .broker⟩,
  ⟨27, "msgTotalEnqueues", .uint64, .broker⟩,
  ⟨28, "msgTxnDequeues", .uint64, .broker⟩,
  ⟨29, "msgTxnEnqueues", .uint64, .broker⟩,
  ⟨30, "queueCount", .uint64, .broker⟩,
  ⟨31, "releases", .uint64, .broker⟩,
  ⟨32, "reroutes", .uint64, .broker⟩,
  ⟨33, "uptime", .uint64, .broker⟩]

/-- Cluster 2: `org.apache.qpid.broker::queue::properties`. -/
def queueProperties : List MetricDescription := [
  ⟨0, "altExchange", .string, .queue⟩,
  ⟨1, "arguments", .string, .queue⟩,
  ⟨2, "autoDelete", .string, .queue⟩,
  ⟨3, "durable", .string, .queue⟩,
  ⟨4, "exclusive", .string, .queue⟩,
  ⟨5, "name", .string, .queue⟩,
  ⟨6, "vhostRef", .string, .queue⟩]

/-- Cluster 3: `org.apache.qpid.broker::queue::statistics`. -/
def queueStatistics : List MetricDescription := [
  ⟨0, "acquires", .uint64, .queue⟩,
  ⟨1, "bindingCountHigh", .uint32, .queue⟩,
  ⟨2, "bindingCountLow", .uint32, .queue⟩,
  ⟨3, "bindingCount", .uint32, .queue⟩,
  ⟨4, "byteDepth", .uint64, .queue⟩,
  ⟨5, "byteFtdDepth", .uint64, .queue⟩,
  ⟨6, "byteFtdDequeues", .uint64, .queue⟩,
  ⟨7, "byteFtdEnqueues", .uint64, .queue⟩,
  ⟨8, "bytePersistDequeues", .uint64, .queue⟩,
  ⟨9, "bytePersistEnqueues", .uint64, .queue⟩,
  ⟨10, "byteTotalDequeues", .uint64, .queue⟩,
  ⟨11, "byteTotalEnqueues", .uint64, .queue⟩,
  ⟨12, "byteTxnDequeues", .uint64, .queue⟩,
  ⟨13, "byteTxnEnqueues", .uint64, .queue⟩,
  ⟨14, "consumerCountHigh", .uint32, .queue⟩,
  ⟨15, "consumerCountLow", .uint32, .queue⟩,
  ⟨16, "consumerCount", .uint32, .queue⟩,
  ⟨17, "discardsLvq", .uint64, .queue⟩,
  ⟨18, "discardsOverflow", .uint64, .queue⟩,
  ⟨19, "discardsPurge", .uint64, .queue⟩,
  ⟨20, "discardsRing", .uint64, .queue⟩,
  ⟨21, "discardsSubscriber", .uint64, .queue⟩,
  ⟨22, "discardsTtl", .uint64, .queue⟩,
  ⟨23, "flowStopped", .string, .queue⟩,
  ⟨24, "flowStoppedCount", .uint32, .queue⟩,
  ⟨25, "messageLatencyAverage", .uint64, .queue⟩,
  ⟨26, "messageLatencyMax", .uint64, .queue⟩,
  ⟨27, "messageLatencyMin", .uint64, .queue⟩,
  ⟨28, "messageLatencySamples", .uint64, .queue⟩,
  ⟨29, "msgDepth", .uint64, .queue⟩,
  ⟨30, "msgFtdDepth", .uint64, .queue⟩,
  ⟨31, "msgFtdDequeues", .uint64, .queue⟩,
  ⟨32, "msgFtdEnqueues", .uint64, .queue⟩,
  ⟨33, "msgPersistDequeues", .uint64, .queue⟩,
  ⟨34, "msgPersistEnqueues", .uint64, .queue⟩,
  ⟨35, "msgTotalDequeues", .uint64, .queue⟩,
  ⟨36, "msgTotalEnqueues", .uint64, .queue⟩,
  ⟨37, "msgTxnDequeues", .uint64, .queue⟩,
  ⟨38, "msgTxnEnqueues", .uint64, .queue⟩,
  ⟨39, "releases", .uint64, .queue⟩,
  ⟨40, "reroutes", .uint64, .queue⟩,
  ⟨41, "unackedMessagesHigh", .uint32, .queue⟩,
  ⟨42, "unackedMessagesLow", .uint32, .queue⟩,
  ⟨43, "unackedMessages", .uint32, .queue⟩]

/-- Cluster 4: `org.apache.qpid.broker::system::properties`. -/
def systemProperties : List MetricDescription := [
  ⟨0, "osName", .string, .system⟩,
  ⟨1, "nodeName", .string, .system⟩,
  ⟨2, "machine", .string, .system⟩,
  ⟨3, "release", .string, .system⟩,
  ⟨4, "version", .string, .system⟩,
  ⟨5, "systemId", .string, .system⟩]

def getSupportedMetrics : List (Nat × List MetricDescription) := [
  (0, brokerProperties),
  (1, brokerStatistics),
  (2, queueProperties),
  (3, queueStatistics),
  (4, systemProperties)]

/-- `supported_metrics.at(cluster).at(item)`, which throws where there is no such entry. -/
def supportedMetric (cluster item : Nat) : Option MetricDescription :=
  (getSupportedMetrics.lookup cluster).bind fun metrics => metrics.find? (·.item == item)

/-- The first switch of `fetch_value`: the domain of a cluster, or no domain. -/
def domainOfCluster : Nat → Option Domain
  | 0 => some .broker
  | 1 => some .broker
  | 2 => some .queue
  | 3 => some .queue
  | 4 => some .system
  | _ => none

/-- The switch of `begin_fetch_values`: the domain of an object type, or no domain. -/
def domainOfType : ObjectSchemaType → Option Domain
  | .broker => some .broker
  | .queue => some .queue
  | .system => some .system
  | .other => none

theorem indom_injective : Function.Injective Domain.indom := by
  intro d e h
  cases d <;> cases e <;> simp [Domain.indom] at h ⊢

theorem exists_of_supportedMetric {cluster item : Nat} {metric : MetricDescription}
    (h : supportedMetric cluster item = some metric) :
    ∃ metrics, (cluster, metrics) ∈ getSupportedMetrics ∧ metric ∈ metrics := by
  obtain ⟨metrics, hcluster, hfind⟩ := Option.bind_eq_some_iff.mp h
  obtain ⟨before, after, hsplit, -⟩ := List.lookup_eq_some_iff.mp hcluster
  exact ⟨metrics, by simp [hsplit], List.mem_of_find?_eq_some hfind⟩

/-- Every metric of the table is filed under the domain that fetching selects for its cluster. -/
theorem domainOfCluster_supported {cluster item : Nat} {metric : MetricDescription}
    (h : supportedMetric cluster item = some metric) :
    domainOfCluster cluster = some metric.domain := by
  have hall : ∀ p ∈ getSupportedMetrics, ∀ m ∈ p.2, domainOfCluster p.1 = some m.domain := by decide
  obtain ⟨metrics, hcluster, hmetric⟩ := exists_of_supportedMetric h
  exact hall _ hcluster metric hmetric

theorem domainOfType_isSome (type : ObjectSchemaType) :
    (domainOfType type).isSome = (type != .other) := by
  cases type <;> rfl

end QpidPmda.Qmf1
