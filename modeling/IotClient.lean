import IotClient.Mqtt.SingleClient
import IotClient.Mqtt.Reconnect
import IotClient.Mqtt.Delivery
import IotClient.Mqtt.Decoding
import IotClient.Lists.History
import IotClient.Lists.Tap
import IotClient.Lists.Order
import IotClient.Lists.Refresh
import IotClient.Lists.Handlers
import IotClient.Account.Credentials
import IotClient.Account.FirstLaunch
import IotClient.Account.Answered
import IotClient.Video.Panel
import IotClient.Video.Separation
import IotClient.Video.Playback
import IotClient.Video.MjpegInputStreamNative
import IotClient.Video.DerivedTables
import IotClient.Video.HuffmanDecoding
import IotClient.Video.HuffmanEncoding
import IotClient.Video.McuDecoding
import IotClient.Video.McuEncoding
import IotClient.Video.ScanRoundTrip
import IotClient.Utils.CompareVersion
import IotClient.Widgets.RecyclerViewClickListener
import IotClient.Widgets.ReplaceViewHelper
import IotClient.Chart.SevenDays
import IotClient.Chart.DataSet
import IotClient.Chart.Updates
import IotClient.Chart.Recalculation
