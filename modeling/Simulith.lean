import Simulith.Server.TickPhase
import Simulith.Server.Order
import Simulith.Server.Grammar
import Simulith.Net.Identity
import Simulith.Net.Membership
import Simulith.Net.Ghost
import Simulith.Net.Subscription
import Simulith.Net.Progress
import Simulith.Net.Liveness
import Simulith.Net.Capacity
import Simulith.Net.Others
import Simulith.Net.Requests
import Simulith.Net.Rounds
import Simulith.Net.Monotone
import Simulith.Net.Halt
import Simulith.Net.Loss
import Simulith.Net.RoundEnd
import Simulith.Net.Sockets
import Simulith.Open.Drift
import Simulith.Open.Drive
import Simulith.Session.Handles
import Simulith.Session.Rollback
import Simulith.Session.Clock
import Simulith.Session.Renewal
import Simulith.Session.Discipline
import Simulith.Can.Queue
import Simulith.Can.Send
import Simulith.Can.Bank
import Simulith.Can.Delivery
import Simulith.Uart.Ring
import Simulith.Gpio.Register
import Simulith.Pwm.Timing
import Simulith.Pwm.Settings
import Simulith.Driver.Isolation
import Simulith.Driver.Reuse
import Simulith.Driver.Contract
import Simulith.Device.View
import Simulith.Process.View
import Simulith.Simulation.Outcome
