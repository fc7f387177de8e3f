import MovingTarget.Snapshot.Basic
/-!
# Snapshots on the wire

Every record of a snapshot is an object with its fields in a fixed order; a field that is left out
takes its preset. A double that is no finite number is written as null and does not read back.
-/
namespace MovingTarget
open Wire

variable [Json.TextLayer]

instance : Wire (Traffic Float) where
  encode t := .record [
    ("packets_in", encode t.packetsIn),
    ("packets_out", encode t.packetsOut),
    ("bytes_in", encode t.bytesIn),
    ("bytes_out", encode t.bytesOut),
    ("packet_rate", encode t.packetRate),
    ("byte_rate", encode t.byteRate),
    ("active_connections", encode t.activeConnections),
    ("avg_latency", encode t.averageLatency)]
  decode? j := do
    let given ← Json.fields? ["packets_in", "packets_out", "bytes_in", "bytes_out", "packet_rate",
      "byte_rate", "active_connections", "avg_latency"] j
    return {
      packetsIn := ← fieldOr? given "packets_in" 0
      packetsOut := ← fieldOr? given "packets_out" 0
      bytesIn := ← fieldOr? given "bytes_in" 0
      bytesOut := ← fieldOr? given "bytes_out" 0
      packetRate := ← fieldOr? given "packet_rate" 0.0
      byteRate := ← fieldOr? given "byte_rate" 0.0
      activeConnections := ← fieldOr? given "active_connections" 0
      averageLatency := ← fieldOr? given "avg_latency" 0.0 }

instance : Wire (Observation Float) where
  encode o := .record [
    ("rate_anomaly", encode o.rateAnomaly),
    ("connection_anomaly", encode o.connectionAnomaly),
    ("pattern_anomaly", encode o.patternAnomaly),
    ("persistence_factor", encode o.persistence),
    ("suspected_type", encode o.suspected),
    ("confidence", encode o.confidence),
    ("timestamp", encode o.time)]
  decode? j := do
    let given ← Json.fields? ["rate_anomaly", "connection_anomaly", "pattern_anomaly",
      "persistence_factor", "suspected_type", "confidence", "timestamp"] j
    return {
      rateAnomaly := ← fieldOr? given "rate_anomaly" 0.0
      connectionAnomaly := ← fieldOr? given "connection_anomaly" 0.0
      patternAnomaly := ← fieldOr? given "pattern_anomaly" 0.0
      persistence := ← fieldOr? given "persistence_factor" 0.0
      suspected := ← fieldOr? given "suspected_type" .none
      confidence := ← fieldOr? given "confidence" 0.0
      time := ← fieldOr? given "timestamp" 0 }

instance : Wire (UserScore Float) where
  encode u := .record [
    ("user_id", encode u.user),
    ("current_score", encode u.score),
    ("risk_level", encode u.level),
    ("last_update_time", encode u.updated)]
  decode? j := do
    let given ← Json.fields? ["user_id", "current_score", "risk_level", "last_update_time"] j
    return {
      user := ← fieldOr? given "user_id" 0
      score := ← fieldOr? given "current_score" 0.0
      level := ← fieldOr? given "risk_level" .low
      updated := ← fieldOr? given "last_update_time" 0 }

instance : Wire (Domain Float) where
  encode d := .record [
    ("domain_id", encode d.id),
    ("name", encode d.name),
    ("proxy_ids", encode d.proxies),
    ("user_ids", encode d.users),
    ("load_factor", encode d.load),
    ("shuffle_frequency", encode d.interval)]
  decode? j := do
    let given ← Json.fields? ["domain_id", "name", "proxy_ids", "user_ids", "load_factor",
      "shuffle_frequency"] j
    return {
      id := ← fieldOr? given "domain_id" 0
      name := ← fieldOr? given "name" ""
      proxies := ← fieldOr? given "proxy_ids" []
      users := ← fieldOr? given "user_ids" []
      load := ← fieldOr? given "load_factor" 0.0
      interval := ← fieldOr? given "shuffle_frequency" 1.0 }

instance : Wire Event where
  encode e := .record [
    ("event_type", encode e.type),
    ("timestamp", encode e.time),
    ("source_node_id", encode e.source),
    ("metadata", encode e.metadata)]
  decode? j := do
    let given ← Json.fields? ["event_type", "timestamp", "source_node_id", "metadata"] j
    return {
      type := ← fieldOr? given "event_type" .shuffleTriggered
      time := ← fieldOr? given "timestamp" 0
      source := ← fieldOr? given "source_node_id" 0
      metadata := ← fieldOr? given "metadata" ∅ }

instance : Wire (Snapshot Float) where
  encode s := .record [
    ("current_time", encode s.time),
    ("domains", encode s.domains),
    ("user_scores", encode s.scores),
    ("proxy_stats", encode s.traffic),
    ("observations", encode s.observations),
    ("recent_events", encode s.events)]
  decode? j := do
    let given ← Json.fields? ["current_time", "domains", "user_scores", "proxy_stats",
      "observations", "recent_events"] j
    return {
      time := ← fieldOr? given "current_time" 0
      domains := ← fieldOr? given "domains" ∅
      scores := ← fieldOr? given "user_scores" ∅
      traffic := ← fieldOr? given "proxy_stats" ∅
      observations := ← fieldOr? given "observations" ∅
      events := ← fieldOr? given "recent_events" [] }

namespace Snapshot

/-- The snapshot on one line. -/
def toText (s : Snapshot Float) : String := Json.TextLayer.line (encode s)

def ofText? (text : String) : Option (Snapshot Float) := (Json.TextLayer.read? text).bind decode?

end Snapshot
end MovingTarget
