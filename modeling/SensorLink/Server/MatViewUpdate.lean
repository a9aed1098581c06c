import SensorLink.Lib.Reach
import SensorLink.Lib.Rollup
import SensorLink.Server.SensorData

/-!
# Updating the materialized views

The collections of one channel, in which samples are inserted while `update_materialized_views` runs for
any of the data sets. A run goes from level to level: it finds the latest document of the level, and
merges what the level below has from there on. It may fail before each of these steps.
-/

namespace SensorLink.Server

open SensorLink.Lib SensorLink.Lib.Rollup

variable {DC V : Type}

/-- How the times are truncated, in milliseconds; there is no format for native samples. -/
def TimeResolution.dateGroup : TimeResolution → Option ℤ
  | native => none
  | seconds => some 1000
  | minutes => some 60000
  | hours => some 3600000

/-- The documents of a data set -/
def ofDataSet (dataSetId : String) (docs : Multiset (Doc (MetaData DC) V)) :
    Multiset (Doc (MetaData DC) V) :=
  docs.filter (·.label.dataSetId = some dataSetId)

/-- The points of a run -/
inductive UpdatePoint
  | idle
  | findLatest (sourceResolution destResolution : TimeResolution)
  | build (sourceResolution destResolution : TimeResolution) (date : ℤ)
  | completed
deriving DecidableEq, Repr

/-- A run for a data set, and whether no sample of it was inserted since the run began. -/
structure UpdateRun where
  point : UpdatePoint
  undisturbed : Bool
deriving DecidableEq, Repr

/-- The collections of a channel, and the runs for its data sets. -/
structure ChannelViews (DC V : Type) where
  collection : TimeResolution → Multiset (Doc (MetaData DC) V)
  runs : String → UpdateRun

/-- A sample is inserted, or a run for a data set begins, goes on or fails. -/
inductive ViewOp (DC V : Type)
  | insert (doc : Doc (MetaData DC) V)
  | begin (dataSetId : String)
  | step (dataSetId : String)
  | fail (dataSetId : String)

namespace ChannelViews

def create : ChannelViews DC V := ⟨fun _ => 0, fun _ => ⟨.idle, false⟩⟩

variable (w : ChannelViews DC V)

/-- The documents of a data set at a level -/
def docs (dataSetId : String) (resolution : TimeResolution) : Multiset (Doc (MetaData DC) V) :=
  ofDataSet dataSetId (w.collection resolution)

/-- The run for a data set comes to another point. -/
def goTo (dataSetId : String) (point : UpdatePoint) : ChannelViews DC V :=
  { w with runs := Function.update w.runs dataSetId { w.runs dataSetId with point := point } }

variable [DecidableEq DC] (f : Multiset V → V)

/-- The samples from `date` on are grouped and merged into the level; `f` makes the fields of a group. -/
def buildMaterializedViewAverage (dataSetId : String) (source dest : TimeResolution) (date unit : ℤ) :
    ChannelViews DC V :=
  { w with
    collection := Function.update w.collection dest
      (refresh f unit (w.docs dataSetId source) (w.collection dest) date) }

/-- The next level, if there is one. -/
def nextPoint (dest : TimeResolution) : UpdatePoint :=
  match dest.coarserResolution with
  | some resolution => .findLatest dest resolution
  | none => .completed

/-- A run goes on. -/
def updateMaterializedViews (dataSetId : String) : ChannelViews DC V :=
  match (w.runs dataSetId).point with
  | .idle | .completed => w
  | .findLatest source dest => w.goTo dataSetId (.build source dest (latest (w.docs dataSetId dest)))
  | .build source dest date =>
    match dest.dateGroup with
    | none => w.goTo dataSetId .idle
    | some unit =>
      (w.buildMaterializedViewAverage f dataSetId source dest date unit).goTo dataSetId (nextPoint dest)

def exec (w : ChannelViews DC V) : ViewOp DC V → ChannelViews DC V
  | .insert doc =>
    { collection := Function.update w.collection .native (w.collection .native + {doc})
      runs := fun dataSetId => { w.runs dataSetId with
        undisturbed := (w.runs dataSetId).undisturbed && !(doc.label.dataSetId = some dataSetId) } }
  | .begin dataSetId =>
    match (w.runs dataSetId).point with
    | .idle | .completed =>
      { w with runs := Function.update w.runs dataSetId ⟨.findLatest .native .seconds, true⟩ }
    | _ => w
  | .step dataSetId => w.updateMaterializedViews f dataSetId
  | .fail dataSetId => w.goTo dataSetId .idle

/-- The samples of a data set are inserted with non-decreasing times. -/
def Guard : ChannelViews DC V → ViewOp DC V → Prop
  | w, .insert doc =>
    ∀ x ∈ w.collection .native, x.label.dataSetId = doc.label.dataSetId → x.time ≤ doc.time
  | _, _ => True

end ChannelViews

/-! ### From scratch -/

/-- The documents at or after the epoch -/
def fromEpoch (docs : Multiset (Doc (MetaData DC) V)) : Multiset (Doc (MetaData DC) V) :=
  docs.filter (0 ≤ ·.time)

/-- Every level, computed as a whole from the native samples. -/
def fromScratch [DecidableEq DC] (f : Multiset V → V) (samples : Multiset (Doc (MetaData DC) V)) :
    TimeResolution → Multiset (Doc (MetaData DC) V)
  | .native => samples
  | .seconds => group f 1000 samples
  | .minutes => group f 60000 (group f 1000 samples)
  | .hours => group f 3600000 (group f 60000 (group f 1000 samples))

end SensorLink.Server
