import AlphaPanda.Paper.Brackets
import AlphaPanda.Streaming.EffectivelyOnce
import AlphaPanda.Pipeline.OneOrder
import AlphaPanda.Pipeline.NoSilentLoss
import AlphaPanda.Pipeline.Hold
import AlphaPanda.Instruments.Reload
import AlphaPanda.Instruments.Atomicity
import AlphaPanda.Streaming.Consumption
import AlphaPanda.Api.Broadcast
import AlphaPanda.Api.RateLimits
import AlphaPanda.Orchestration.Startup
import AlphaPanda.Resilience.CircuitBreaker
import AlphaPanda.Risk.PositionLimit
import AlphaPanda.Risk.Segregation
import AlphaPanda.Strategies.Isolation
import AlphaPanda.Api.ConnectionManager
import AlphaPanda.MarketFeed.Reconnection
import AlphaPanda.MarketFeed.Conservation
import AlphaPanda.Streaming.Propagation
import AlphaPanda.Streaming.DeadLetters
import AlphaPanda.Paper.Exclusivity
import AlphaPanda.Paper.TimeInForce
import AlphaPanda.Paper.LimitProtection
import AlphaPanda.Paper.SeenWindow
import AlphaPanda.Paper.Guardrails
import AlphaPanda.Streaming.ErrorReturns
import AlphaPanda.Streaming.Deduplication
import AlphaPanda.Risk.PriceBand
import AlphaPanda.StateManager.Collections
import AlphaPanda.Strategies.Scale
import AlphaPanda.Strategies.Confidence
import AlphaPanda.Strategies.Degradation
import AlphaPanda.Strategies.SignalPrice
import AlphaPanda.Strategies.Breakout
import AlphaPanda.Strategies.LowFrequencyDemo
import AlphaPanda.StrategyRunner.Loading
import AlphaPanda.MarketHours.NextOpen
import AlphaPanda.MarketFeed.Malformed
import AlphaPanda.Monitoring.Alerting
import AlphaPanda.Instruments.Acceptance
import AlphaPanda.Instruments.Reading
import AlphaPanda.Instruments.Upserts
import AlphaPanda.Health.HealthChecker
import AlphaPanda.Logging.Redaction
import AlphaPanda.Monitoring.PipelineMetrics
import AlphaPanda.Monitoring.PipelineValidator
import AlphaPanda.Streaming.Metering
import AlphaPanda.Auth.Validity
import AlphaPanda.Auth.RoundTrip
import AlphaPanda.Auth.Consistency
import AlphaPanda.Paper.Provenance
import AlphaPanda.Pipeline.Provenance
import AlphaPanda.Scripts.ServiceLetters
import AlphaPanda.Strategies.Restart
import AlphaPanda.Monitoring.PipelineMonitor
import AlphaPanda.Orchestration.Application
import AlphaPanda.MarketFeed.Ordering
import AlphaPanda.Orchestration.Restarts
import AlphaPanda.Health.PeriodicCheck
import AlphaPanda.Health.FlowChecks
