import SurfaceLoom.Lib.Checked
import SurfaceLoom.Lib.Elimination
import SurfaceLoom.Lib.JsonWrite

/-! # Evidence graphs

`defineEvidenceContext` accepts the nodes and relations of one case as a graph without
cycles. It looks everything up by `evidenceRefKey`, a JSON text; that the text determines
the reference is `evidenceRefKey_injective`. Nodes and relations are taken here as `node`
and `relation` have read them. -/
namespace SurfaceLoom.Core.EvidenceGraph
open SurfaceLoom.Lib SurfaceLoom.Lib.JsonText

/-! ## Nodes and relations -/

inductive EvidenceKind
  | caseExecution
  | attempt
  | step
  | agentRun
  | toolCall
  | artifact
  deriving DecidableEq

def EvidenceKind.name : EvidenceKind → String
  | .caseExecution => "caseExecution"
  | .attempt => "attempt"
  | .step => "step"
  | .agentRun => "agentRun"
  | .toolCall => "toolCall"
  | .artifact => "artifact"

inductive EvidenceRef
  | caseExecution (caseExecutionId : String)
  | attempt (caseExecutionId attemptId : String)
  | step (caseExecutionId attemptId stepId : String)
  | agentRun (caseExecutionId attemptId runId : String)
  | toolCall (caseExecutionId attemptId runId callId : String)
  | artifact (caseExecutionId attemptId artifactId : String)
  deriving DecidableEq

namespace EvidenceRef

def kind : EvidenceRef → EvidenceKind
  | caseExecution _ => .caseExecution
  | attempt _ _ => .attempt
  | step _ _ _ => .step
  | agentRun _ _ _ => .agentRun
  | toolCall _ _ _ _ => .toolCall
  | artifact _ _ _ => .artifact

def caseExecutionId : EvidenceRef → String
  | caseExecution id => id
  | attempt id _ => id
  | step id _ _ => id
  | agentRun id _ _ => id
  | toolCall id _ _ _ => id
  | artifact id _ _ => id

def attemptId : EvidenceRef → Option String
  | caseExecution _ => none
  | attempt _ id => some id
  | step _ id _ => some id
  | agentRun _ id _ => some id
  | toolCall _ id _ _ => some id
  | artifact _ id _ => some id

end EvidenceRef

inductive EvidenceRelationKind
  | contains
  | declaredCause
  | produced
  | observedBy
  | attachedTo
  deriving DecidableEq

def EvidenceRelationKind.name : EvidenceRelationKind → String
  | .contains => "contains"
  | .declaredCause => "declaredCause"
  | .produced => "produced"
  | .observedBy => "observedBy"
  | .attachedTo => "attachedTo"

inductive EvidenceSourceKind
  | runner
  | adapter
  | probe
  | traceImporter
  deriving DecidableEq

structure EvidenceSource where
  kind : EvidenceSourceKind
  producerId : String
  sourceRecordId : String

structure EvidenceNode where
  ref : EvidenceRef
  source : EvidenceSource
  observedAt : Option String

structure EvidenceRelation where
  id : String
  relation : EvidenceRelationKind
  from_ : EvidenceRef
  to_ : EvidenceRef
  source : EvidenceSource

structure EvidenceContext where
  caseExecutionId : String
  nodes : List EvidenceNode
  relations : List EvidenceRelation

/-! ## Keys -/

def texts (parts : List String) : Tree := .array (parts.map fun part => .string (Str.ofString part))

/-- `JSON.stringify` of an array of strings. -/
def stringify (parts : List String) : String := String.ofList (chars (texts parts).write)

def EvidenceRef.parts : EvidenceRef → List String
  | caseExecution id => [EvidenceKind.caseExecution.name, id]
  | attempt id attemptId => [EvidenceKind.attempt.name, id, attemptId]
  | step id attemptId stepId => [EvidenceKind.step.name, id, attemptId, stepId]
  | agentRun id attemptId runId => [EvidenceKind.agentRun.name, id, attemptId, runId]
  | toolCall id attemptId runId callId => [EvidenceKind.toolCall.name, id, attemptId, runId, callId]
  | artifact id attemptId artifactId => [EvidenceKind.artifact.name, id, attemptId, artifactId]

def evidenceRefKey (ref : EvidenceRef) : String := stringify ref.parts

def edgeKey (edge : EvidenceRelation) : String :=
  stringify [edge.relation.name, evidenceRefKey edge.from_, evidenceRefKey edge.to_]

/-! ## The checks -/

def maxItems : Nat := 10000

def collectNodes (caseExecutionId : String) :
    List EvidenceNode → OrderedMap String EvidenceNode →
      Except String (OrderedMap String EvidenceNode)
  | [], nodeByKey => .ok nodeByKey
  | item :: nodes, nodeByKey =>
    if item.ref.caseExecutionId ≠ caseExecutionId then
      .error "Evidence context contains a cross-case node."
    else if nodeByKey.has (evidenceRefKey item.ref) then
      .error ("Duplicate evidence node: " ++ evidenceRefKey item.ref)
    else collectNodes caseExecutionId nodes (nodeByKey.set (evidenceRefKey item.ref) item)

def missingAttempt (ref : EvidenceRef) : String :=
  "Evidence node " ++ evidenceRefKey ref ++ " is missing its attempt parent."

def missingRun (ref : EvidenceRef) : String :=
  "Evidence node " ++ evidenceRefKey ref ++ " is missing its agent-run parent."

def validateParent (has : String → Bool) (ref : EvidenceRef) : Except String Unit :=
  match ref.attemptId with
  | none => .ok ()
  | some attemptId =>
    if ¬has (evidenceRefKey (.attempt ref.caseExecutionId attemptId)) then
      .error (missingAttempt ref)
    else
      match ref with
      | .toolCall caseExecutionId attemptId runId _ =>
        if ¬has (evidenceRefKey (.agentRun caseExecutionId attemptId runId)) then
          .error (missingRun ref)
        else .ok ()
      | _ => .ok ()

def validateParents (has : String → Bool) : List EvidenceNode → Except String Unit
  | [] => .ok ()
  | item :: nodes => do
    validateParent has item.ref
    validateParents has nodes

def compatibleAttempt (left right : EvidenceRef) : Bool :=
  if left.kind = .caseExecution ∨ right.kind = .caseExecution then true
  else left.attemptId = right.attemptId

def validEndpoints (relation : EvidenceRelationKind) (from_ to_ : EvidenceKind) : Bool :=
  if relation = .contains then
    (from_ = .caseExecution && to_ = .attempt) ||
      (from_ = .attempt && to_ ∈ [.step, .agentRun, .artifact]) ||
      (from_ = .agentRun && to_ = .toolCall)
  else if relation = .produced ∨ relation = .observedBy then
    from_ ∈ [.step, .agentRun, .toolCall] && to_ = .artifact
  else if relation = .attachedTo then
    from_ = .artifact && to_ ∈ [.attempt, .step, .agentRun, .toolCall]
  else
    from_ ∈ [.step, .agentRun, .toolCall, .artifact] &&
      to_ ∈ [.step, .agentRun, .toolCall, .artifact]

def validRelationEndpoints (edge : EvidenceRelation) : Bool :=
  validEndpoints edge.relation edge.from_.kind edge.to_.kind

/-- One round of the loop over the relations; their ids are identifiers by now. -/
def checkRelation (caseExecutionId : String) (has : String → Bool) (relationIds edgeKeys : List String)
    (edge : EvidenceRelation) : Except String Unit :=
  if edge.id ∈ relationIds then .error ("Duplicate evidence relation id: " ++ edge.id)
  else if ¬has (evidenceRefKey edge.from_) ∨ ¬has (evidenceRefKey edge.to_) then
    .error ("Evidence relation " ++ edge.id ++ " references an unknown node.")
  else if edge.from_.caseExecutionId ≠ caseExecutionId ∨
      edge.to_.caseExecutionId ≠ caseExecutionId then
    .error ("Evidence relation " ++ edge.id ++ " crosses case executions.")
  else if ¬compatibleAttempt edge.from_ edge.to_ then
    .error ("Evidence relation " ++ edge.id ++ " crosses attempts.")
  else if ¬validRelationEndpoints edge then
    .error ("Evidence relation " ++ edge.id ++ " has invalid endpoints for " ++
      edge.relation.name ++ ".")
  else if edgeKey edge ∈ edgeKeys then .error ("Duplicate evidence relation: " ++ edge.id)
  else .ok ()

def checkRelations (caseExecutionId : String) (has : String → Bool) :
    List String → List String → List EvidenceRelation → Except String Unit
  | _, _, [] => .ok ()
  | relationIds, edgeKeys, edge :: relations => do
    checkRelation caseExecutionId has relationIds edgeKeys edge
    checkRelations caseExecutionId has (edge.id :: relationIds) (edgeKey edge :: edgeKeys) relations

def edgesOf (relations : List EvidenceRelation) : List (String × String) :=
  relations.map fun edge => (evidenceRefKey edge.from_, evidenceRefKey edge.to_)

/-- Taking vertices away leaves the keys of `indegree` as they are. -/
def rejectCycles (relations : List EvidenceRelation) : Except String Unit :=
  let edges := edgesOf relations
  if Elimination.visited edges ≠ some (Elimination.degrees edges).indegree.size then
    .error "Evidence relations contain a cycle."
  else .ok ()

/-- `if (!condition) throw new Error(message)`. -/
def require (condition : Bool) (message : String) : Except String Unit :=
  if condition then .ok () else .error message

def defineEvidenceContext (caseExecutionId : String) (nodes : List EvidenceNode)
    (relations : List EvidenceRelation) : Except String EvidenceContext := do
  require (nodes.length ≤ maxItems && relations.length ≤ maxItems)
    "Evidence context exceeds the maximum graph size."
  let nodeByKey ← collectNodes caseExecutionId nodes .empty
  require (nodeByKey.has (evidenceRefKey (.caseExecution caseExecutionId)))
    "Evidence context is missing its case execution node."
  validateParents nodeByKey.has nodes
  checkRelations caseExecutionId nodeByKey.has [] [] relations
  rejectCycles relations
  return ⟨caseExecutionId, nodes, relations⟩

end SurfaceLoom.Core.EvidenceGraph
