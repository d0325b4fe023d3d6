import RestaurantOS.Events.ExactlyOnce
import RestaurantOS.Events.Attempts
import RestaurantOS.Events.Progress
import RestaurantOS.Events.Poison
import RestaurantOS.Events.RoundTrip
import RestaurantOS.Auth.Admission
import RestaurantOS.Auth.RefreshRotation
import RestaurantOS.Auth.Recovery
import RestaurantOS.Auth.LocalBounds
import RestaurantOS.Auth.Guessing
import RestaurantOS.Inventory.Ledger
import RestaurantOS.Inventory.LowStock
import RestaurantOS.Orders.Acceptance
import RestaurantOS.Inventory.StateEvents
import RestaurantOS.Inventory.Idempotency
import RestaurantOS.Orders.Idempotency
import RestaurantOS.Recipes.Agreement
import RestaurantOS.Analytics.Rebuild
import RestaurantOS.Alerts.ActivePage
import RestaurantOS.Notifications.Stubs
import RestaurantOS.Maintenance.Runs
import RestaurantOS.Tenancy.LastOwner
import RestaurantOS.Tenancy.Revocation
import RestaurantOS.Catalog.Revisions
import RestaurantOS.Catalog.SequentialReads
import RestaurantOS.Pipeline.EndToEnd
import RestaurantOS.Schema
import RestaurantOS.Pipeline.Recovery
import RestaurantOS.Events.Outstanding
import RestaurantOS.Analytics.DashboardAgreement
import RestaurantOS.Catalog.Circuit
import RestaurantOS.Orders.Storage
import RestaurantOS.Orders.Authorization
import RestaurantOS.Auth.KeyFraming
import RestaurantOS.Auth.ClientAddress
import RestaurantOS.Frontend.InventoryKeys
import RestaurantOS.Events.ConsumerLoop
import RestaurantOS.Frontend.Renewal
import RestaurantOS.Inventory.Fingerprint
import RestaurantOS.Events.Backoff
import RestaurantOS.Events.Producers
