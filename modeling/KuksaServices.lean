import KuksaServices.Feeder.Batches
import KuksaServices.Feeder.Registration
import KuksaServices.Feeder.Waiting
import KuksaServices.Mock.Echo
import KuksaServices.Mock.Isolation
import KuksaServices.Mock.Requests
import KuksaServices.Mock.Subscriptions
import KuksaServices.Seat.Closing
import KuksaServices.Seat.Lifecycle
import KuksaServices.Seat.Published
import KuksaServices.Seat.Window
import KuksaServices.Seat.Iterations
import KuksaServices.Seat.Positions
import KuksaServices.Hvac.Connection
import KuksaServices.Mock.Accounting
import KuksaServices.Seat.Simulator
import KuksaServices.Seat.ClosedLoop
import KuksaServices.Mock.Animation
import KuksaServices.Mock.Clock
import KuksaServices.Feeder.Stopping
import KuksaServices.Seat.Subscriber
import KuksaServices.Seat.Reader
import KuksaServices.Mock.Drivers
import KuksaServices.Mock.Session
import KuksaServices.Mock.Reloads
import KuksaServices.Mock.Animators
import KuksaServices.Atomic.Signals
import KuksaServices.Seat.Bcm
import KuksaServices.Seat.Layout
import KuksaServices.Seat.LearnedMode
import KuksaServices.Seat.Stops
import KuksaServices.Atomic.OrderedMap
import KuksaServices.Mock.RegistryMap
import KuksaServices.Mock.Deletion
import KuksaServices.Atomic.Unrolls
import KuksaServices.Mock.Binding
import KuksaServices.Mock.Programs
import KuksaServices.Mock.MainLoop
import KuksaServices.Seat.Arrival
import KuksaServices.Mock.Shipped
import KuksaServices.Feeder.Promptness
import KuksaServices.Feeder.Ending
import KuksaServices.Seat.Pipeline
import KuksaServices.Seat.Shutdown
import KuksaServices.Seat.Journey
import KuksaServices.Seat.BcmEvents
import KuksaServices.Mock.Arrival
import KuksaServices.Seat.Client
import KuksaServices.Seat.CanSim
import KuksaServices.Atomic.Drain
import KuksaServices.Mock.Settling
import KuksaServices.Atomic.Parallel
import KuksaServices.Hvac.Updates
import KuksaServices.Hvac.Recovery
