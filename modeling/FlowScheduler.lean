import FlowScheduler.Durable.Checksum
import FlowScheduler.Lifecycle.Retirement
import FlowScheduler.Fairness.Sharing
import FlowScheduler.Arbitration.Deficits
import FlowScheduler.Arbitration.Starving
import FlowScheduler.Arbitration.Eligibility
import FlowScheduler.Authority.Dispatch
import FlowScheduler.Authority.Offers
import FlowScheduler.Authority.Refused
import FlowScheduler.Authority.Staleness
import FlowScheduler.Budget.Exclusive
import FlowScheduler.Budget.Intervals
import FlowScheduler.Budget.Quanta
import FlowScheduler.Durable.Appends
import FlowScheduler.Lifecycle.Arrivals
import FlowScheduler.Lifecycle.Deadlines
import FlowScheduler.Lifecycle.Final
import FlowScheduler.Lifecycle.Resting
import FlowScheduler.Lifecycle.Scanning
import FlowScheduler.Recovery.Incarnations
import FlowScheduler.Recovery.Timeline
import FlowScheduler.Recovery.Twins
import FlowScheduler.Recovery.Writable
import FlowScheduler.Wire.Protocol
import FlowScheduler.Wire.Stream
import FlowScheduler.Coordinator.Isolation
import FlowScheduler.Coordinator.Coverage
import FlowScheduler.Arbitration.Limit
import FlowScheduler.Lifecycle.Deliveries
import FlowScheduler.Fairness.Clocks
import FlowScheduler.Budget.Release
