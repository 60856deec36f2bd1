import Nautilus.Book.PriceMap
import Nautilus.Book.Snapshot
import Nautilus.Own.Consistency
import Nautilus.Orders.Accounting
import Nautilus.Orders.Closing
import Nautilus.Reconcile.Windows
import Nautilus.Engine.Reset
import Nautilus.Engine.Triggers
import Nautilus.Reconcile.External
import Nautilus.Pool.Fees
import Nautilus.Network.Admission
import Nautilus.Network.Intent
import Nautilus.Clock.Schedule
import Nautilus.Clock.Throttling
import Nautilus.Bus.Coherence
import Nautilus.Catalog.Deletion
import Nautilus.Catalog.KMerge
import Nautilus.EventStore.Capture
import Nautilus.Backtest.DataIterator
import Nautilus.Book.Stale
import Nautilus.Risk.Gateway
import Nautilus.Cache.Reset
import Nautilus.Rounding
import Nautilus.Position.Duration
import Nautilus.Pool.Atomicity
import Nautilus.Engine.Consumption
import Nautilus.Pool.Applying
