import WezuBackend.Wallet.Reconciliation
import WezuBackend.Wallet.Withdrawal
import WezuBackend.Wallet.RefundOrigin
import WezuBackend.Wallet.ConcurrentRefunds
import WezuBackend.Wallet.Delivery
import WezuBackend.Bookings.ConcurrentPayments
import WezuBackend.Rental.PaymentReplay
import WezuBackend.Rental.PromoUses
import WezuBackend.Rental.RentalCap
import WezuBackend.Wallet.Refund
import WezuBackend.Orders.RefundBound
import WezuBackend.Orders.Announcements
import WezuBackend.Streams.Worker
import WezuBackend.Outbox.OrderRealtime
import WezuBackend.Settlements.Chargebacks
import WezuBackend.Catalog.Cashback
import WezuBackend.Warehouse.Ledger
import WezuBackend.Warehouse.ShelfCapacity
import WezuBackend.Bookings.TwoApis
import WezuBackend.Bookings.PaidActivation
import WezuBackend.Bookings.ConcurrentReservations
import WezuBackend.Orders.ConcurrentRefunds
import WezuBackend.Orders.ConcurrentUpdates
import WezuBackend.Wallet.Postings
import WezuBackend.Wallet.TransferEndpoint
import WezuBackend.Auth.OtpSecurity
import WezuBackend.Inventory.Retirement
import WezuBackend.Inventory.StationIds
import WezuBackend.Inventory.Receipts
import WezuBackend.Rental.BookedBatteries
import WezuBackend.Rental.OtherOperations
import WezuBackend.Payments.Methods
import WezuBackend.Audit.RequestQueue
import WezuBackend.Auth.Roles
import WezuBackend.Auth.IssuedTokens
import WezuBackend.Auth.RefreshRotation
import WezuBackend.Utils.Invalidations
import WezuBackend.Auth.PasskeyClaims
import WezuBackend.Auth.TokenCache
import WezuBackend.Auth.TokenKinds
import WezuBackend.Inventory.ManifestTrips
import WezuBackend.Settlements.Disputes
import WezuBackend.Background.Leader
import WezuBackend.Realtime.Connections
import WezuBackend.Dealers.Kyc
import WezuBackend.Rental.Prices
import WezuBackend.Rental.SwapAtomicity
import WezuBackend.Rental.ReturnRequests
import WezuBackend.Rental.Waivers
import WezuBackend.Rental.Extensions
import WezuBackend.Orders.DispatchCodec
import WezuBackend.Orders.WalletRefunds
import WezuBackend.Settlements.Generation
import WezuBackend.Orders.BatteryIds
import WezuBackend.Orders.Retries
import WezuBackend.Orders.Replays
import WezuBackend.Campaigns.Discounts
import WezuBackend.Dealers.LedgerPages
import WezuBackend.Fleet.ChargingQueue
import WezuBackend.Maintenance.Downtimes
import WezuBackend.Orders.Routes
import WezuBackend.Settlements.Rates
import WezuBackend.Fleet.BatchExport
import WezuBackend.Maintenance.Sweeps
import WezuBackend.Stations.Clusters
import WezuBackend.Users.StateService
import WezuBackend.Audit.Logging
import WezuBackend.Fleet.ScanTokens
import WezuBackend.Streams.EventCodec
import WezuBackend.Core.Proxy
import WezuBackend.Wallet.Recharge
