import AquaticTracker.Common.Primitives
import AquaticTracker.Collections.IndexMap
import AquaticTracker.Collections.BTreeMap
import AquaticTracker.Protocol.Wire
import AquaticTracker.Protocol.Request
import AquaticTracker.Protocol.Response
import AquaticTracker.Swarm.Torrent
import AquaticTracker.Udp.Swarm
import AquaticTracker.Udp.Handlers
import AquaticTracker.Udp.AnnounceResponse
import AquaticTracker.Socket.Validator
import AquaticTracker.Socket.Mio
import AquaticTracker.Udp.Glommio.PendingScrape
import AquaticTracker.Udp.Glommio.Worker
import AquaticTracker.Ws.Handler
import AquaticTracker.Http.Scrape
import AquaticTracker.Http.Response
import AquaticTracker.Http.Connection
import AquaticTracker.Ws.Network
import AquaticTracker.Ws.Connection
import AquaticTracker.Ws.Tracker
