import KubemqWorkshop.Machine
import KubemqWorkshop.Dictionary
import KubemqWorkshop.Switchboard
import KubemqWorkshop.FailureModes
import KubemqWorkshop.FailStop
import KubemqWorkshop.Disciplines
import KubemqWorkshop.Window
import KubemqWorkshop.Watch
import KubemqWorkshop.Pass
import KubemqWorkshop.Decimal
import KubemqWorkshop.BandWalk
import KubemqWorkshop.Rows
import KubemqWorkshop.Json
import KubemqWorkshop.Base64
import KubemqWorkshop.Encoding
import KubemqWorkshop.Rates
import KubemqWorkshop.Manager
import KubemqWorkshop.Generator
import KubemqWorkshop.Activation
import KubemqWorkshop.PriceBand
import KubemqWorkshop.Startup
import KubemqWorkshop.Configuration
import KubemqWorkshop.RatesQueue
import KubemqWorkshop.Senders
import KubemqWorkshop.Dashboard
import KubemqWorkshop.Feed
import KubemqWorkshop.StartStop
import KubemqWorkshop.Chart
import KubemqWorkshop.NumberPipe
import KubemqWorkshop.Canvas
import KubemqWorkshop.Screen
import KubemqWorkshop.Rendering
import KubemqWorkshop.Forwarders
import KubemqWorkshop.GoForwarder
import KubemqWorkshop.NodeForwarder
import KubemqWorkshop.PythonForwarder
import KubemqWorkshop.Fleet
import KubemqWorkshop.Relay
import KubemqWorkshop.Page
import KubemqWorkshop.Pipeline
import KubemqWorkshop.EndToEnd
import KubemqWorkshop.Trend
import KubemqWorkshop.Subscriber
import KubemqWorkshop.FeedSocket
import KubemqWorkshop.ControlLoop
import KubemqWorkshop.Deployment
