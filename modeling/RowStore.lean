import RowStore.Engine.Action
import RowStore.Merge.Program
import RowStore.NameCache.Run
import RowStore.Proofs.Client.Hiding
import RowStore.Proofs.Client.Isolation
import RowStore.Proofs.Client.Leading
import RowStore.Proofs.Client.Matching
import RowStore.Proofs.Client.Naming
import RowStore.Proofs.Session.Releasing
import RowStore.Proofs.Client.Transactions
import RowStore.Scenario.Prepared
import RowStore.Scenario.Range
import RowStore.Scenario.Throughput
import RowStore.Session.Step
import RowStore.Proofs.NameCache.Expiry
import RowStore.Proofs.Engine.Contents
import RowStore.Proofs.Engine.Keyed
import RowStore.Proofs.Engine.Failing
import RowStore.Proofs.Engine.Seeking
import RowStore.Proofs.Engine.Sparing
import RowStore.Proofs.Engine.Scanning
import RowStore.Proofs.Client.Visiting
import RowStore.Proofs.Engine.Consistent
import RowStore.Proofs.Client.Transparency
import RowStore.Proofs.Session.Transparency
import RowStore.Proofs.Client.Errands
import RowStore.Proofs.Client.Buffering
import RowStore.Proofs.NameCache.Capacity
import RowStore.Proofs.NameCache.Guards
import RowStore.Proofs.Session.Causes
import RowStore.Proofs.Session.Closing
import RowStore.Proofs.NameCache.Counting
import RowStore.Proofs.NameCache.Accounting
import RowStore.Proofs.Session.Balance
import RowStore.Proofs.Engine.Merging
import RowStore.Proofs.Client.Summing
import RowStore.Proofs.Session.Summing
import RowStore.Proofs.Client.Balance
import RowStore.Proofs.Client.Filling
import RowStore.Proofs.Data.Successor
import RowStore.Proofs.Engine.Neutral
import RowStore.Proofs.Scan.Ranges
import RowStore.Proofs.Client.Rejecting
import RowStore.Proofs.Merge.Registering
import RowStore.Proofs.Engine.Destroying
import RowStore.Proofs.Client.Judging
import RowStore.Proofs.Data.Images
import RowStore.Proofs.Engine.Padding
import RowStore.Proofs.Session.Retrying
import RowStore.Proofs.Client.Layout
