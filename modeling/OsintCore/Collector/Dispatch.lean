import OsintCore.Connector.RunState

namespace Collector

-- Less failed connectors come first, then the ones which succeeded last, and the ones which never
-- did come last.
def fairOrder (a b : Connector) : Ordering :=
  (compare a.errorCount.toInt b.errorCount.toInt).then <|
    (match a.lastSuccess, b.lastSuccess with
      | some x, some y => compare y x
      | some _, none   => .lt
      | none, some _   => .gt
      | none, none     => .eq).then <|
    compare a.id b.id

structure Dispatch where
  dispatch : List Connector := []
  deferred : List Connector := []
  retries  : Nat := 0

namespace Dispatch

-- The body of the loop in `takeFairDispatch`.
def take (cap : Nat) (d : Dispatch) (c : Connector) : Dispatch :=
  if 0 < c.errorCount then
    if d.retries ≥ cap then
      { d with deferred := d.deferred ++ [c] }
    else
      { d with
        dispatch := d.dispatch ++ [c]
        retries  := d.retries + 1 }
  else
    { d with dispatch := d.dispatch ++ [c] }

end Dispatch

def sortFair (due : List Connector) : List Connector :=
  due.insertionSort fun a b => fairOrder a b ≠ .gt

def takeFairDispatch (due : List Connector) (maxRetryPerTick : Nat) :
    List Connector × List Connector :=
  let d := (sortFair due).foldl (Dispatch.take (max maxRetryPerTick 1)) {}
  (d.dispatch, d.deferred)

namespace Sample

def failing (id : ConnectorId) (errorCount : Int32) : Connector where
  id                  := id
  sourceId            := 1
  name                := "feed"
  connectorType       := "rss"
  version             := "1"
  enabled             := true
  configuration       := .object []
  credentialReference := none
  schedule            := some "*/15 * * * *"
  rateLimit           := .null
  timeout             := .null
  proxyReference      := none
  checkpoint          := .null
  lastRun             := none
  lastSuccess         := none
  status              := "error"
  errorCount          := errorCount

end Sample

end Collector
