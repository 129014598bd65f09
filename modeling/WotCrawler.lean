import WotCrawler.Ingest.Winner
import WotCrawler.Relay.SeenSet
import WotCrawler.Relay.Coverage
import WotCrawler.Store.Interleaving
import WotCrawler.Crawl.NewestWins
import WotCrawler.Crawl.Fencing
import WotCrawler.Crawl.Lifecycle
import WotCrawler.Crawl.Provenance
import WotCrawler.Crawl.Batch
import WotCrawler.Daemon.Answered
import WotCrawler.Daemon.Recovery
import WotCrawler.Daemon.WriteRelays
import WotCrawler.Daemon.Retry
import WotCrawler.Daemon.RelayKeys
import WotCrawler.Daemon.Politeness
import WotCrawler.Crawl.Agreement
import WotCrawler.Crawl.Budget
import WotCrawler.Crawl.Component
import WotCrawler.Crawl.Resume
import WotCrawler.Crawl.Freshness
import WotCrawler.Daemon.Admission
import WotCrawler.Daemon.Ceiling
import WotCrawler.Daemon.Config
import WotCrawler.Daemon.Oversized
import WotCrawler.Daemon.Loop
import WotCrawler.Crawl.Strict
import WotCrawler.Daemon.Drain
import WotCrawler.Daemon.Joining
import WotCrawler.Daemon.Attempts
import WotCrawler.Daemon.Preference
import WotCrawler.Ingest.RelayList
import WotCrawler.Relay.Admit
import WotCrawler.Relay.Backoff
import WotCrawler.Relay.Blocked
import WotCrawler.Relay.PageBudget
import WotCrawler.Relay.Probes
import WotCrawler.Relay.Scores
import WotCrawler.Relay.Share
import WotCrawler.Store.Relays
import WotCrawler.Daemon.Miss
import WotCrawler.Daemon.Skew
import WotCrawler.Daemon.Windows
import WotCrawler.Crawl.Exactness
import WotCrawler.Daemon.Requests
import WotCrawler.Daemon.Settlement
import WotCrawler.Daemon.Refinement
import WotCrawler.Daemon.Service
import WotCrawler.Daemon.Sampler
import WotCrawler.Daemon.Overtaking
import WotCrawler.Crawl.Listing
import WotCrawler.Daemon.Backpressure
import WotCrawler.Relay.Quota
import WotCrawler.Crawl.Integrity
import WotCrawler.Daemon.Quiescence
