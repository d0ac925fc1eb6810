import Sparkplug.Sequence
import Sparkplug.NodeClients
import Sparkplug.HostState
import Sparkplug.BirthOrder
import Sparkplug.Publishing
import Sparkplug.Updates
import Sparkplug.Timer
import Sparkplug.Payload
import Sparkplug.Routing
import Sparkplug.Failures
import Sparkplug.Connecting
import Sparkplug.Certificates
import Sparkplug.Retries
import Sparkplug.DataMessages
import Sparkplug.SingleMode
import Sparkplug.Uri
import Sparkplug.MetricKinds
import Sparkplug.PublishCalls
import Sparkplug.Acknowledgements
import Sparkplug.PropertyUpdates
import Sparkplug.StateMessages
import Sparkplug.Lifetimes
import Sparkplug.Handovers
import Sparkplug.Pipeline
import Sparkplug.Wire
import Sparkplug.Schedule
import Sparkplug.Topics
import Sparkplug.HostCopy
import Sparkplug.Requests
import Sparkplug.Settling
import Sparkplug.Shutdown
import Sparkplug.Deadlines
import Sparkplug.Leftovers
