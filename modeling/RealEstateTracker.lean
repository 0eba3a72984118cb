import RealEstateTracker.Alerts.AtomicEdits
import RealEstateTracker.Alerts.LostUpdate
import RealEstateTracker.Alerts.PlannerTick
import RealEstateTracker.Application.ConditionErrors
import RealEstateTracker.Application.ConditionPrinter
import RealEstateTracker.Application.EvaluationSafety
import RealEstateTracker.Application.Pushdown
import RealEstateTracker.Cycle.Accounting
import RealEstateTracker.Cycle.CacheTransparency
import RealEstateTracker.Cycle.ChangedListings
import RealEstateTracker.Cycle.Coalescing
import RealEstateTracker.Cycle.Deadlock
import RealEstateTracker.Cycle.FailedScrape
import RealEstateTracker.Cycle.Identities
import RealEstateTracker.Cycle.Isolation
import RealEstateTracker.Cycle.LockProgress
import RealEstateTracker.Cycle.MutualExclusion
import RealEstateTracker.Cycle.Provenance
import RealEstateTracker.Cycle.SerialCycle
import RealEstateTracker.Cycle.SkippedListings
import RealEstateTracker.Domain.Compilation
import RealEstateTracker.Domain.PriceThresholds
import RealEstateTracker.Infrastructure.BadFields
import RealEstateTracker.Infrastructure.FieldIssues
import RealEstateTracker.Infrastructure.MisreadNumbers
import RealEstateTracker.Notifications.DoubleSend
import RealEstateTracker.Notifications.Ownership
import RealEstateTracker.Notifications.Starvation
import RealEstateTracker.Persistence.PriceHistory
import RealEstateTracker.Persistence.PropertyRoundTrip
import RealEstateTracker.Presentation.Dashboard
import RealEstateTracker.Scraping.BaseScraper
import RealEstateTracker.Scraping.BreakerHistory
import RealEstateTracker.Scraping.Coverage
import RealEstateTracker.Scraping.HalfOpen
import RealEstateTracker.Scraping.PortalLoad
import RealEstateTracker.Scraping.QueryIndependence
import RealEstateTracker.Scraping.RateLimiter
import RealEstateTracker.Scraping.SharedQueries
import RealEstateTracker.Service.MatchList
