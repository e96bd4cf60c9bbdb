import CryptoInfra.History
import CryptoInfra.OrderedMap
import CryptoInfra.ByteOrder
import CryptoInfra.Numeral
import CryptoInfra.Json
import CryptoInfra.Orderbook.Basic
import CryptoInfra.Orderbook.Update
import CryptoInfra.Orderbook.Ledger
import CryptoInfra.Orderbook.Capacity
import CryptoInfra.Orderbook.Broadcast
import CryptoInfra.Orderbook.LateClients
import CryptoInfra.Orderbook.Consolidated
import CryptoInfra.Orderbook.Freshness
import CryptoInfra.Wire
import CryptoInfra.Core.Basic
import CryptoInfra.Core.Subscriptions
import CryptoInfra.Core.Connections
import CryptoInfra.Core.Framing
import CryptoInfra.Core.Segmentation
import CryptoInfra.Client.Listen
import CryptoInfra.Client.RoundTrip
import CryptoInfra.Core.Indices
import CryptoInfra.Core.Subscribers
import CryptoInfra.Core.Pointers
import CryptoInfra.Core.Leftovers
import CryptoInfra.Orderbook.Interleaving
import CryptoInfra.Orderbook.Repeats
import CryptoInfra.Orderbook.Specification
import CryptoInfra.Orderbook.Updates
import CryptoInfra.Orderbook.Repricing
import CryptoInfra.Core.Books
import CryptoInfra.Core.Audience
import CryptoInfra.Core.Linearization
import CryptoInfra.Websockets.Basic
import CryptoInfra.Websockets.Quotes
import CryptoInfra.Websockets.Refinement
import CryptoInfra.Websockets.Malformed
import CryptoInfra.Websockets.Snapshots
import CryptoInfra.Exchange.Coinbase
import CryptoInfra.Exchange.Results
import CryptoInfra.System.Backend
import CryptoInfra.System.Serialization
import CryptoInfra.System.Quotes
import CryptoInfra.System.World
import CryptoInfra.System.Delivery
import CryptoInfra.System.Agreement
import CryptoInfra.System.EndToEnd
import CryptoInfra.System.Interleavings
import CryptoInfra.System.Settling
