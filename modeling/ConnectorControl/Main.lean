import ConnectorControl.Crd.Definition

/-!
# The command line

Prints the definition of the Connector resource, to be installed in a cluster.
-/

def main : IO Unit := IO.print ConnectorControl.Crd.manifest
