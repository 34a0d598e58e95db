import Propagation.Store.Basic
import Propagation.Json.Records

/-!
# Dossiers

Everything that is recorded about a network: its nodes, whatever became of them, the vectors
that start there, what they authored, sent and derived.

## Main definitions

* `Dossier`: the records of a network.
* `Network.dossier`: collect them in a transaction.
* `Dossier.text`: the dossier as a JSON document.
* `Store.dossierText`: the document, made in a transaction of its own.
-/

namespace Propagation

/-- The records of a network. -/
structure Dossier where
  network : Network
  nodes : List Node
  vectors : List Vector
  infos : List Info := []
  transmissions : List Transmission := []
  transformations : List Transformation := []
  deriving DecidableEq

namespace Dossier

/-- Add to `d` what node `n` authored, sent and derived. -/
def addNode (d : Dossier) (n : Node) : Access Dossier := do
  let infos ← Access.infos { origin := some n.id }
  let transmissions ← Access.transmissions { origin := some n.id }
  let transformations ← Access.transformations { node := some n.id }
  return { d with
    infos := d.infos ++ infos
    transmissions := d.transmissions ++ transmissions
    transformations := d.transformations ++ transformations }

/-- The dossier as JSON. -/
def encode (d : Dossier) : Json := .obj [
  ("network", Json.encode d.network),
  ("nodes", .arr (d.nodes.map Json.encode)),
  ("vectors", .arr (d.vectors.map Json.encode)),
  ("infos", .arr (d.infos.map Json.encode)),
  ("transmissions", .arr (d.transmissions.map Json.encode)),
  ("transformations", .arr (d.transformations.map Json.encode))]

/-- The dossier as a JSON document: `Json.pretty`, and an end to the last line. -/
def text (d : Dossier) : String := d.encode.pretty ++ "\n"

end Dossier

/-- Collect the records of the network `id`. -/
def Network.dossier (id : NetworkId) : Access Dossier := do
  let network ← Access.requireNetwork id
  let nodes ← Access.nodes { network := some id }
  let vectors ← Access.vectors { network := some id }
  nodes.foldlM Dossier.addNode { network, nodes, vectors }

/-- The dossier of the network `id` as a document. The transaction in which it is made writes
nothing and is given up. -/
def Store.dossierText (id : NetworkId) (s : Store) : Except Error String × Store :=
  let (tx, s) := s.begin .readOnly .readCommitted
  let ((outcome, _), s) := s.run (Op.access (Network.dossier id)) tx
  (outcome.map Dossier.text, s)

end Propagation
